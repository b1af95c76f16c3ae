import WinVpwn.Python.ParseElf

/-!
# The `run` command (src/winvpwn/cli.py)

What `winvpwn run` hands out, what of it arrives on stdout and how the command ends. The
bytes of the guest go to stdout as they are; the rest goes through a Rich console, which
is a parameter, and so are the text of the JSON and the texts of the operating system.
Stdout takes all that is written to it.
-/

namespace WinVpwn.Python
open Rust Lib WinVpwn.Elf WinVpwn.Cpu WinVpwn.Syscall WinVpwn.Trace WinVpwn.Vkernel

/-- A Python `float`; a finite one is the rational number it denotes. -/
inductive PyFloat where
  | finite (q : ℚ)
  | infinite (negative : Bool)
  | nan
  deriving DecidableEq, Repr

/-- What the console is handed by `print` and `print_json`. -/
inductive Shown where
  | markup (text : String)
  | json (payload : RunReport ⊕ ElfInfo)
  | table (title : String) (columns : List String) (rows : List (List String))
  deriving DecidableEq, Repr

inductive Emit where
  | bytes (data : List U8)
  | shown (what : Shown)
  deriving DecidableEq, Repr

/-- An exit with a status, an exception nobody catches, or a panic that cannot unwind. -/
inductive Ending where
  | exit (status : ℕ)
  | uncaught
  | aborted
  deriving DecidableEq, Repr

structure RunFlags where
  json : Bool
  quiet : Bool

def OK : String := "green"
def WARN : String := "gold3"
def ERROR : String := "indian_red"

/-- `_exit_code` (cli.py:79). -/
def exitCode (result : RunReport) : ℕ :=
  if result.exit = "exit" then
    match result.code with
    | some code => code.toNat
    | none => 0
  else 1

/-- `_print_run_summary` (cli.py:87). -/
def printRunSummary (result : RunReport) : Shown :=
  if result.exit = "exit" then
    let code := (result.code.getD 0).toNat
    let style := if code = 0 then OK else WARN
    .markup ("[" ++ style ++ "]exit(" ++ toString code ++ ")[/]")
  else if result.exit = "falloff" then
    .markup ("[" ++ WARN ++ "]instruction falloff at " ++ toString (result.rip.getD 0).toNat ++ "[/]")
  else
    .markup ("[" ++ WARN ++ "]stopped by user[/]")

def traceRow (rec : TraceRecord) : List String :=
  [toString rec.seq.toNat, rec.name, ", ".intercalate (rec.args.toList.map fun a => toString a.toNat),
    toString rec.ret]

/-- `_print_trace` (cli.py:102). -/
def printTrace (trace : List TraceRecord) : Shown :=
  if trace = [] then .markup "[bright_black]no syscalls were executed[/]"
  else .table "syscall trace" ["#", "syscall", "args", "ret"] (trace.map traceRow)

/-- What the console is handed for a result (cli.py:64-75). -/
def showResult (flags : RunFlags) (result : RunReport) : List Shown :=
  if flags.json then [.json (.inl result)]
  else if flags.quiet then []
  else [.markup "", printRunSummary result, printTrace result.trace]

/-- All that `run` hands out for a result (cli.py:59-75). -/
def printResult (flags : RunFlags) (result : RunReport) : List Emit :=
  (if result.output = [] then [] else [.bytes result.output]) ++
    (showResult flags result).map .shown

/-- What both commands print for an exception they catch. -/
def complaint (exc : String) : Shown := .markup ("[" ++ ERROR ++ "]error[/] " ++ exc)

def nanText : String := "cannot convert float NaN to integer"

section Run
variable {U : Type} [Unicorn U]

/-- `core.run_elf(image, int(timeout))`, for any float. -/
def runTimed (h : Host U) (image : Image) : PyFloat → Outcome PyErr RunReport
  | .finite q => runCommand h image q
  | .infinite _ => .err .overflowError
  | .nan => .err (.valueError nanText)

/-- A panic before the run arrives as a `PanicException`. The hook is called from C, and
a panic that reaches C aborts the process. -/
def panicEnding (h : Host U) (image : Image) : Ending :=
  match ready h image with
  | .fault _ => .uncaught
  | _ => .aborted

/-- `run` (cli.py:43). Only a `ValueError` or the `OSError` of an unreadable file is
caught. -/
def run (h : Host U) (file : Except String Image) (timeout : PyFloat) (flags : RunFlags) :
    List Emit × Ending :=
  match file with
  | .error exc => ([.shown (complaint exc)], .exit 2)
  | .ok image =>
    match runTimed h image timeout with
    | .ok result => (printResult flags result, .exit (exitCode result))
    | .err (.valueError exc) => ([.shown (complaint exc)], .exit 2)
    | .err .overflowError => ([], .uncaught)
    | .fault _ => ([], panicEnding h image)

end Run

/-! ### What arrives -/

/-- Rich on stdout: what it writes for what it is handed, and whether it raises then, as
it does for markup that closes a tag never opened. -/
structure Console where
  writes : Shown → List U8
  raises : Shown → Bool

/-- What arrives on stdout, and how the command ends; an exception of the console is
caught nowhere. -/
def deliver (con : Console) : List Emit → Ending → List U8 × Ending
  | [], ending => ([], ending)
  | .bytes data :: emits, ending =>
    let rest := deliver con emits ending
    (data ++ rest.1, rest.2)
  | .shown what :: emits, ending =>
    if con.raises what then (con.writes what, .uncaught)
    else
      let rest := deliver con emits ending
      (con.writes what ++ rest.1, rest.2)

/-- The status a guest leaves with: the low byte of its exit, or 1 if it was cut off. -/
def guestStatus {U : Type} [LawfulUnicorn U] (events : List (Event U)) : ℕ :=
  match events.getLast? with
  | some e => if e.regs.IsExit then e.regs.arg0.toNat % 256 else 1
  | none => 1

/-- The limit that a float comes to. -/
def PyFloat.Limits (t : PyFloat) (timeoutMs : U64) : Prop :=
  ∃ q, t = .finite q ∧ (timeoutMs.toNat : ℤ) = int q

/-- An infinity, or a number no `u64` can hold once it is truncated. -/
def PyFloat.OutOfRange : PyFloat → Prop
  | .finite q => ¬(0 ≤ int q ∧ int q < 2 ^ 64)
  | .infinite _ => True
  | .nan => False

section Told
variable {U : Type} [LawfulUnicorn U]

/-- What the command complains of, with the text. -/
inductive Complains (h : Host U) (file : Except String Image) (timeout : PyFloat) : String → Prop
  | unread (exc : String) (hfile : file = .error exc) : Complains h file timeout exc
  | notANumber (image : Image) (hfile : file = .ok image) (hnan : timeout = .nan) :
    Complains h file timeout nanText
  | diagnosed (image : Image) (timeoutMs : U64) (code exc : String) (hfile : file = .ok image)
    (htime : timeout.Limits timeoutMs) (hcode : Diagnosis h image timeoutMs code)
    (hexc : code.toList <+: exc.toList) : Complains h file timeout exc

/-- What the console is handed after a run: the dict, or nothing, or a summary and a row
for each syscall. -/
structure Displays (flags : RunFlags) (events : List (Event U)) (result : RunReport)
    (shown : List Shown) : Prop where
  json : flags.json = true → shown = [.json (.inl result)]
  quiet : flags.json = false → flags.quiet = true → shown = []
  plain : flags.json = false → flags.quiet = false → shown = [.markup "", printRunSummary result,
    printTrace (events.mapIdx fun i e => stage1Record i e.regs)]

/-- The ends of the command, with what is on stdout then. -/
inductive Ends (con : Console) (h : Host U) (file : Except String Image) (timeout : PyFloat)
    (flags : RunFlags) : List U8 × Ending → Prop
  | complained (exc : String) (hwhy : Complains h file timeout exc) :
    Ends con h file timeout flags (con.writes (complaint exc),
      if con.raises (complaint exc) then .uncaught else .exit 2)
  | overflowed (image : Image) (hfile : file = .ok image) (hrange : timeout.OutOfRange) :
    Ends con h file timeout flags ([], .uncaught)
  | panicked (image : Image) (timeoutMs : U64) (hfile : file = .ok image)
    (htime : timeout.Limits timeoutMs) (hpanic : Panics h image timeoutMs)
    (hready : ∀ v, ready h image ≠ .ok v) : Ends con h file timeout flags ([], .uncaught)
  | aborted (image : Image) (timeoutMs : U64) (elf : ParsedElf) (v : Vcpu U) (e : Event U)
    (hfile : file = .ok image) (htime : timeout.Limits timeoutMs) (hstart : Started h image elf v)
    (he : e ∈ Vcpu.events (h.emuStart ⟨elf.entry, 0xffffffffffffffff, timeoutMs, 0⟩ v.uc) v)
    (hwrite : e.regs.IsStreamWrite) (hcount : isizeMax < e.regs.count) :
    Ends con h file timeout flags ([], .aborted)
  | ran (image : Image) (timeoutMs : U64) (elf : ParsedElf) (v v' : Vcpu U)
    (status : Except String Unit) (events : List (Event U)) (result : RunReport)
    (shown : List Shown) (hfile : file = .ok image) (htime : timeout.Limits timeoutMs)
    (hstart : Started h image elf v)
    (hrun : Vcpu.emulate (h.emuStart ⟨elf.entry, 0xffffffffffffffff, timeoutMs, 0⟩ v.uc) v =
      (.ok status, v'))
    (hevents : events =
      Vcpu.events (h.emuStart ⟨elf.entry, 0xffffffffffffffff, timeoutMs, 0⟩ v.uc) v)
    (hreports : Reports events status (regReadOrZero v'.uc .RIP) result)
    (hshown : Displays flags events result shown) :
    Ends con h file timeout flags
      (events.flatMap Event.written ++
          (deliver con (shown.map .shown) (.exit (guestStatus events))).1,
        (deliver con (shown.map .shown) (.exit (guestStatus events))).2)

end Told

theorem deliver_complaint (con : Console) (exc : String) (ending : Ending) :
    deliver con [.shown (complaint exc)] ending =
      (con.writes (complaint exc), if con.raises (complaint exc) then .uncaught else ending) := by
  unfold deliver
  split_ifs
  · rfl
  · exact congrArg (fun text => (text, ending)) (List.append_nil _)

/- The bytes of the guest come first and once, and no console stands in their way. -/
theorem deliver_printResult (con : Console) (flags : RunFlags) (result : RunReport)
    (ending : Ending) : deliver con (printResult flags result) ending =
      (result.output ++ (deliver con ((showResult flags result).map .shown) ending).1,
        (deliver con ((showResult flags result).map .shown) ending).2) := by
  unfold printResult
  by_cases hnil : result.output = []
  · rw [if_pos hnil, hnil]
    rfl
  · rw [if_neg hnil]
    rfl

theorem toU64_cases (n : ℤ) :
    ((0 ≤ n ∧ n < 2 ^ 64) ∧ ∃ word : U64, toU64 n = .ok word ∧ (word.toNat : ℤ) = n) ∨
      (¬(0 ≤ n ∧ n < 2 ^ 64) ∧ toU64 n = .err .overflowError) := by
  unfold toU64
  by_cases hin : 0 ≤ n ∧ n < 2 ^ 64
  · rw [if_pos hin]
    refine .inl ⟨hin, _, rfl, ?_⟩
    rw [BitVec.toNat_ofInt]
    omega
  · rw [if_neg hin]
    exact .inr ⟨hin, rfl⟩

theorem runTimed_of_limits {U : Type} [Unicorn U] {h : Host U} {image : Image} {t : PyFloat}
    {word : U64} (ht : t.Limits word) : runTimed h image t = runElf h image word := by
  obtain ⟨q, rfl, hvalue⟩ := ht
  have hcommand : runTimed h image (.finite q) =
      (toU64 (int q) >>= fun timeoutMs => runElf h image timeoutMs) := rfl
  rw [hcommand]
  rcases toU64_cases (int q) with ⟨-, word', hconv, hvalue'⟩ | ⟨hrange, -⟩
  · have hsame : word = word' := BitVec.eq_of_toNat_eq (by omega)
    rw [hconv, hsame]
    rfl
  · exact absurd ⟨by omega, by omega⟩ hrange

theorem runTimed_cases {U : Type} [Unicorn U] (h : Host U) (image : Image) (t : PyFloat) :
    (t = .nan ∧ runTimed h image t = .err (.valueError nanText)) ∨
    (t.OutOfRange ∧ runTimed h image t = .err .overflowError) ∨
    ∃ word, t.Limits word ∧ runTimed h image t = runElf h image word := by
  cases t with
  | nan => exact .inl ⟨rfl, rfl⟩
  | infinite negative => exact .inr (.inl ⟨trivial, rfl⟩)
  | finite q =>
    right
    rcases toU64_cases (int q) with ⟨-, word, -, hvalue⟩ | ⟨hrange, hconv⟩
    · have hlimits : PyFloat.Limits (.finite q) word := ⟨q, rfl, hvalue⟩
      exact .inr ⟨word, hlimits, runTimed_of_limits hlimits⟩
    · refine .inl ⟨hrange, ?_⟩
      unfold runTimed runCommand
      dsimp only
      rw [hconv]
      rfl

section Account
variable {U : Type} [LawfulUnicorn U]

theorem displays_of_reports {events : List (Event U)} {status : Except String Unit} {rip : U64}
    {result : RunReport} (h : Reports events status rip result) (flags : RunFlags) :
    Displays flags events result (showResult flags result) := by
  constructor
  case json =>
    intro hjson
    rw [showResult, if_pos hjson]
  case quiet =>
    intro hjson hquiet
    simp only [showResult, hjson, hquiet, Bool.false_eq_true, if_false, if_true]
  case plain =>
    intro hjson hquiet
    simp only [showResult, hjson, hquiet, Bool.false_eq_true, if_false, h.trace]

theorem Reports.exits_iff {events : List (Event U)} {status : Except String Unit} {rip : U64}
    {result : RunReport} (h : Reports events status rip result) :
    result.exit = "exit" ↔ result.code.isSome = true := by
  rw [h.exit]
  cases result.code with
  | some c => simp
  | none => cases result.rip <;> simp

theorem exitCode_reports {events : List (Event U)} {status : Except String Unit} {rip : U64}
    {result : RunReport} (h : Reports events status rip result) :
    exitCode result = guestStatus events := by
  unfold exitCode guestStatus
  cases hcode : result.code with
  | some c =>
    obtain ⟨e, he, hx, hval⟩ := (h.code c).mp hcode
    rw [if_pos (h.exits_iff.mpr (by rw [hcode]; rfl)), he]
    dsimp only
    rw [if_pos hx, hval]
  | none =>
    rw [if_neg (fun hexit => by simpa [hcode] using h.exits_iff.mp hexit)]
    cases he : events.getLast? with
    | none => rfl
    | some e =>
      dsimp only
      rw [if_neg]
      intro hx
      have hsome := (h.code e.regs.exitCode).mpr ⟨e, he, hx, SyscallRegs.exitCode_toNat _⟩
      rw [hcode] at hsome
      cases hsome

theorem ends_of_fault {h : Host U} (hh : h.Lawful) (con : Console) {image : Image}
    {timeout : PyFloat} {word : U64} {p : Fault} (flags : RunFlags) (htime : timeout.Limits word)
    (hrun : runElf h image word = .fault p) :
    Ends con h (.ok image) timeout flags ([], panicEnding h image) := by
  have hpanic := panics_of_fault hh hrun
  unfold panicEnding
  cases hready : ready h image with
  | fault q => exact .panicked image word rfl htime hpanic (by simp [hready])
  | err e =>
    rw [runElf_eq, hready] at hrun
    cases hrun
  | ok v =>
    obtain ⟨elf, hs⟩ := started_of_ready hh hready
    rw [runElf_eq, hready, Outcome.ok_bind] at hrun
    rcases finish_cases hh hs word with
      ⟨-, e, he, hwrite, hcount⟩ | ⟨-, status, v', -, ⟨-, msg, hend⟩ | ⟨-, result, hend⟩⟩
    · rw [hs.execution] at he
      exact .aborted image word elf v e rfl htime hs he hwrite hcount
    · rw [hend] at hrun
      cases hrun
    · rw [hend] at hrun
      cases hrun

end Account

def utf8 (text : String) : List U8 := text.toUTF8.toList.map UInt8.toBitVec

/-- What Rich writes of the greeting's run on a stdout that is no terminal. -/
def greetingConsole : Console where
  writes
    | .markup "" => utf8 "\n"
    | .markup _ => utf8 "exit(7)\n"
    | .json _ => []
    | .table .. => utf8 <| "\n".intercalate [
      "                  syscall trace                  ",
      "╭───┬────────────┬────────────────────────┬─────╮",
      "│ # │ syscall    │ args                   │ ret │",
      "├───┼────────────┼────────────────────────┼─────┤",
      "│ 0 │ write      │ 1, 4194458, 2, 0, 0, 0 │ 2   │",
      "│ 1 │ exit_group │ 7, 4194458, 2, 0, 0, 0 │ 0   │",
      "╰───┴────────────┴────────────────────────┴─────╯", ""]
  raises _ := false

example : run (hostOf greeting) (.ok greetingImage) (.finite 0) ⟨false, false⟩ =
    ([.bytes [0x68, 0x69], .shown (.markup ""), .shown (.markup "[gold3]exit(7)[/]"),
      .shown (.table "syscall trace" ["#", "syscall", "args", "ret"]
        [["0", "write", "1, 4194458, 2, 0, 0, 0", "2"],
          ["1", "exit_group", "7, 4194458, 2, 0, 0, 0", "0"]])], .exit 7) := by
  decide +kernel

end WinVpwn.Python

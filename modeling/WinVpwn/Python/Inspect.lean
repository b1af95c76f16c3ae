import WinVpwn.Python.Cli
import WinVpwn.Python.ErrorText

/-!
# The `elf` command (src/winvpwn/cli.py)

What `winvpwn elf` hands to the console for an image is enough to tell how `winvpwn run`
fares with it up to the run. A narrow terminal may cut what it is handed.
-/

namespace WinVpwn.Python
open Rust Lib WinVpwn.Elf WinVpwn.Cpu WinVpwn.Syscall WinVpwn.Trace WinVpwn.Vkernel

def PRIMARY : String := "cyan"

/-- `{:08x}`. -/
def hex08 (n : ℕ) : String := String.ofList ((Nat.toDigits 16 n).leftpad 8 '0')

def segmentRow (seg : SegmentInfo) : List String :=
  [hex seg.vaddr.toNat, hex seg.memsz.toNat, hex seg.filesz.toNat, hex08 seg.flags.toNat,
    hex seg.align.toNat]

/-- What `elf` hands to the console for an image (cli.py:134-156). -/
def showInfo (json : Bool) (info : ElfInfo) : List Shown :=
  if json then [.json (.inr info)]
  else
    [.markup ("[" ++ PRIMARY ++ "]entry[/] " ++ hex info.entry.toNat),
      .markup ("[" ++ PRIMARY ++ "]pie[/] " ++ if info.isPie then "True" else "False"),
      .table "loadable segments" ["vaddr", "memsz", "filesz", "flags", "align"]
        (info.segments.map segmentRow)]

/-- `elf` (cli.py:120). A panic of `parse_elf` arrives as a `PanicException`. -/
def elfCommand (b : Build) (parse : Image → Except String ParsedElf) (file : Except String Image)
    (json : Bool) : List Emit × Ending :=
  match file with
  | .error exc => ([.shown (complaint exc)], .exit 2)
  | .ok image =>
    match parseElf b parse image with
    | .ok info => ((showInfo json info).map .shown, .exit 0)
    | .err (.valueError exc) => ([.shown (complaint exc)], .exit 2)
    | .err .overflowError => ([], .uncaught)
    | .fault _ => ([], .uncaught)

/-! ### What is handed out can be read back -/

theorem hex08_injective : Function.Injective hex08 := by
  intro m n h
  have hlists := congrArg String.toList h
  simp only [hex08, String.toList_ofList] at hlists
  exact leftpad_injective (by decide) (by decide) 8 hlists

theorem segmentRow_injective : Function.Injective segmentRow := by
  intro s t h
  obtain ⟨vaddr, memsz, filesz, flags, align⟩ := s
  obtain ⟨vaddr', memsz', filesz', flags', align'⟩ := t
  simp only [segmentRow, List.cons.injEq, hex_injective.eq_iff, hex08_injective.eq_iff,
    BitVec.toNat_inj, and_true] at h
  obtain ⟨rfl, rfl, rfl, rfl, rfl⟩ := h
  rfl

theorem showInfo_injective (json : Bool) : Function.Injective (showInfo json) := by
  intro info info' h
  cases json with
  | true =>
    simp only [showInfo, if_true, List.cons.injEq, Shown.json.injEq, Sum.inr.injEq,
      and_true] at h
    exact h
  | false =>
    obtain ⟨entry, isPie, segments⟩ := info
    obtain ⟨entry', isPie', segments'⟩ := info'
    simp only [showInfo, Bool.false_eq_true, if_false, List.cons.injEq, Shown.markup.injEq,
      Shown.table.injEq, String.append_right_inj, hex_injective.eq_iff, BitVec.toNat_inj,
      segmentRow_injective.list_map.eq_iff, true_and, and_true] at h
    obtain ⟨rfl, hpie, rfl⟩ := h
    rw [ElfInfo.mk.injEq]
    refine ⟨rfl, ?_, rfl⟩
    cases isPie <;> cases isPie' <;> simp at hpie ⊢

theorem shown_injective : Function.Injective Emit.shown := by
  intro s t h
  exact Emit.shown.inj h

/-! ### Two commands on one image -/

section Commands
variable {U : Type} [LawfulUnicorn U]

theorem elf_cases (b : Build) (parse : Image → Except String ParsedElf) (image : Image)
    (json : Bool) :
    (∃ info, parseElf b parse image = .ok info ∧
      elfCommand b parse (.ok image) json = ((showInfo json info).map .shown, .exit 0)) ∨
    (∃ exc, parseElf b parse image = .err (.valueError exc) ∧
      elfCommand b parse (.ok image) json = ([.shown (complaint exc)], .exit 2)) ∨
    ∃ p, parseElf b parse image = .fault p ∧
      elfCommand b parse (.ok image) json = ([], .uncaught) := by
  unfold elfCommand
  dsimp only
  cases hparse : parseElf b parse image with
  | ok info => exact .inl ⟨info, rfl, rfl⟩
  | fault p => exact .inr (.inr ⟨p, rfl, rfl⟩)
  | err e =>
    cases e with
    | valueError exc => exact .inr (.inl ⟨exc, rfl, rfl⟩)
    | overflowError =>
      unfold parseElf at hparse
      cases hload : loadElf b parse image <;> rw [hload] at hparse <;> cases hparse

theorem run_of_refused {h : Host U} {image : Image} {json : Bool}
    (hend : (elfCommand h.build h.parse (.ok image) json).2 = .exit 2) {timeout : PyFloat}
    {timeoutMs : U64} (htime : timeout.Limits timeoutMs) (flags : RunFlags) :
    run h (.ok image) timeout flags = elfCommand h.build h.parse (.ok image) json := by
  rcases elf_cases h.build h.parse image json with
    ⟨info, -, hrun⟩ | ⟨exc, hbad, hrun⟩ | ⟨p, -, hrun⟩
  · rw [hrun] at hend
    cases hend
  · rw [hrun]
    unfold run
    dsimp only
    rw [runTimed_of_limits htime, runElf_of_parseElf_err hbad timeoutMs]
  · rw [hrun] at hend
    cases hend

theorem parseElf_of_ready {h : Host U} {image : Image} {v : Vcpu U}
    (hready : ready h image = .ok v) : ∃ info, parseElf h.build h.parse image = .ok info := by
  unfold ready at hready
  obtain ⟨elf, hload, -⟩ := Outcome.bind_eq_ok.mp hready
  rw [Outcome.mapErr_eq_ok] at hload
  refine ⟨⟨elf.entry, elf.isPie, elf.segments.map segmentInfo⟩, ?_⟩
  unfold parseElf
  rw [hload]
  rfl

theorem same_report {b : Build} {parse : Image → Except String ParsedElf} {image image' : Image}
    {json : Bool} {info : ElfInfo} (hinfo : parseElf b parse image = .ok info)
    (hsame : elfCommand b parse (.ok image) json = elfCommand b parse (.ok image') json) :
    parseElf b parse image' = .ok info := by
  have hrun : elfCommand b parse (.ok image) json =
      ((showInfo json info).map .shown, .exit 0) := by
    unfold elfCommand
    simp only [hinfo]
  rw [hrun] at hsame
  rcases elf_cases b parse image' json with
    ⟨info', hinfo', hrun'⟩ | ⟨exc, -, hrun'⟩ | ⟨p, -, hrun'⟩
  · rw [hrun', Prod.mk.injEq] at hsame
    rw [hinfo', showInfo_injective json (shown_injective.list_map hsame.1)]
  · rw [hrun', Prod.mk.injEq] at hsame
    cases hsame.2
  · rw [hrun', Prod.mk.injEq] at hsame
    cases hsame.2

/-- What `elf` hands to the console for an image tells how `run` fares with any image for
which it hands out the same: refused, it is refused by `run` with these very words;
otherwise `run` gets both to run or neither, and where it does the two guests start as one
report describes them. -/
theorem elf_foretells (h : Host U) (hh : h.Lawful) (uc : U) (hnew : h.newEngine = .ok uc)
    (json : Bool) (image image' : Image)
    (hsame : elfCommand h.build h.parse (.ok image) json =
      elfCommand h.build h.parse (.ok image') json) :
    ((elfCommand h.build h.parse (.ok image) json).2 = .exit 2 →
      ∀ (timeout : PyFloat) timeoutMs, timeout.Limits timeoutMs → ∀ flags,
        run h (.ok image') timeout flags = elfCommand h.build h.parse (.ok image) json) ∧
    ((∃ v, ready h image = .ok v) ↔ ∃ v, ready h image' = .ok v) ∧
    ∀ v v', ready h image = .ok v → ready h image' = .ok v' →
      ∃ info, Describes info v ∧ Describes info v' := by
  refine ⟨?_, ?_, ?_⟩
  · intro hend timeout timeoutMs htime flags
    rw [hsame] at hend ⊢
    exact run_of_refused hend htime flags
  · constructor
    · intro hready
      obtain ⟨v, hv⟩ := hready
      obtain ⟨info, hinfo⟩ := parseElf_of_ready hv
      have hload := (ready_iff_loadable hh hnew hinfo).mp ⟨v, hv⟩
      exact (ready_iff_loadable hh hnew (same_report hinfo hsame)).mpr hload
    · intro hready
      obtain ⟨v, hv⟩ := hready
      obtain ⟨info, hinfo⟩ := parseElf_of_ready hv
      have hload := (ready_iff_loadable hh hnew hinfo).mp ⟨v, hv⟩
      exact (ready_iff_loadable hh hnew (same_report hinfo hsame.symm)).mpr hload
  · intro v v' hv hv'
    obtain ⟨info, hinfo⟩ := parseElf_of_ready hv
    exact ⟨info, describes_of_ready hh hinfo hv,
      describes_of_ready hh (same_report hinfo hsame) hv'⟩

/-- The greeting with another text, of the same length. -/
def parting : Exec64 := { greeting with body := greeting.body.take 34 ++ [0x6f, 0x6b] }

def partingImage : Image := ⟨parting.bytes, by decide +kernel⟩

theorem parting_foretold :
    ((elfCommand .debug (fun _ => .ok greeting.parsed) (.ok greetingImage) false).2 = .exit 2 →
      ∀ (timeout : PyFloat) timeoutMs, timeout.Limits timeoutMs → ∀ flags,
        run (hostOf greeting) (.ok partingImage) timeout flags =
          elfCommand .debug (fun _ => .ok greeting.parsed) (.ok greetingImage) false) ∧
    ((∃ v, ready (hostOf greeting) greetingImage = .ok v) ↔
      ∃ v, ready (hostOf greeting) partingImage = .ok v) ∧
    ∀ v v', ready (hostOf greeting) greetingImage = .ok v →
      ready (hostOf greeting) partingImage = .ok v' → ∃ info, Describes info v ∧ Describes info v' :=
  elf_foretells (hostOf greeting) (hostOf_lawful greeting) FlatEngine.new rfl false greetingImage
    partingImage (by decide +kernel)

end Commands
end WinVpwn.Python

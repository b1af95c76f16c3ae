import WinVpwn.Cpu.Events
import WinVpwn.Vkernel.Mem

/-!
# One run, three records

The output buffer, the trace sink and the slots are written by different parts
of the hook. Over a run they say the same: what the readable writes wrote, and
how the last syscall ended it.
-/

namespace WinVpwn.Cpu
open Rust Lib WinVpwn.Syscall WinVpwn.Vkernel WinVpwn.Trace

def readFailed : String := (DispatchError.engine "guest memory read failed").toString

/-- The documented behaviour of `emu_start`: once the hook has called `emu_stop`
nothing more is delivered and the call returns `Ok`, and its own errors are not
worded as dispatch errors. -/
def Execution.Obeys {U : Type} [LawfulUnicorn U] : Execution U → Prop
  | .done _ status => ∀ msg, status = .error msg → msg ≠ readFailed
  | .syscall _ resume => ∀ uc, (resume uc).Obeys ∧
    (LawfulUnicorn.stopRequested uc = true → ∃ uc', resume uc = .done uc' (.ok ()))

theorem Execution.obeys_done {U : Type} [LawfulUnicorn U] (uc : U) :
    (Execution.done uc (.ok ())).Obeys := by
  rintro msg ⟨⟩

/-! ### Events by their registers and memory -/

namespace Event
variable {U : Type} [LawfulUnicorn U] (e : Event U)

def regs : SyscallRegs := Vcpu.hookRegs e.before

def Readable : Prop :=
  (LawfulUnicorn.space e.before).Covers e.regs.arg1.toNat e.regs.count

def buffer : List U8 := memBytes e.before e.regs.arg1 e.regs.count

def Writes : Prop := e.regs.IsStreamWrite ∧ e.Readable

def Fails : Prop := e.regs.IsStreamWrite ∧ ¬e.Readable

def Terminates : Prop := e.regs.IsExit ∨ e.Fails

open Classical in
noncomputable def written : List U8 := if e.Writes then e.buffer else []

end Event

/-- The sum of `ret` over the records named "write" with a `ret` that is not negative. -/
def writeTotal (records : List TraceRecord) : ℤ :=
  ((records.filter fun r => r.name = "write" ∧ 0 ≤ r.ret).map TraceRecord.ret).sum

theorem writeTotal_append (rs ss : List TraceRecord) :
    writeTotal (rs ++ ss) = writeTotal rs + writeTotal ss := by
  simp [writeTotal]

/-! ### One event -/

theorem traced_records {M : Type} {d : Dispatch M} {sink : TraceSink} (hsink : d.trace = some sink)
    (r : SyscallRegs) (o : SyscallOutcome) :
    ∃ rec : TraceRecord, (d.traced r o).trace = some ⟨sink.records ++ [rec]⟩ ∧
      rec.name = d.nameOf r.syscallNr ∧ rec.ret = TraceSink.retOf o := by
  unfold Dispatch.traced
  rw [hsink]
  exact ⟨_, rfl, rfl, rfl⟩

theorem writeTotal_of_neg {rec : TraceRecord} (h : rec.ret < 0) : writeTotal [rec] = 0 := by
  have hnot : ¬(rec.name = "write" ∧ 0 ≤ rec.ret) := by omega
  simp [writeTotal, hnot]

theorem writeTotal_of_name {rec : TraceRecord} (h : rec.name ≠ "write") : writeTotal [rec] = 0 := by
  simp [writeTotal, h]

theorem writeTotal_of_write {rec : TraceRecord} (h : rec.name = "write") (hret : 0 ≤ rec.ret) :
    writeTotal [rec] = rec.ret := by
  simp [writeTotal, h, hret]

theorem nameOf_write {M : Type} [GuestMemory M] {b : Build} {d : Dispatch M} (hd : IsStage1 b d) :
    d.nameOf 1 = "write" := by
  rw [Dispatch.nameOf, find_stage1 b hd]
  rfl

theorem nameOf_exit {M : Type} [GuestMemory M] {b : Build} {d : Dispatch M} (hd : IsStage1 b d)
    {r : SyscallRegs} (h : r.IsExit) : d.nameOf r.syscallNr ≠ "write" := by
  rw [Dispatch.nameOf, find_stage1 b hd]
  rcases h with h | h <;> rw [h]
  · show "exit" ≠ "write"
    decide
  · show "exit_group" ≠ "write"
    decide

section Step
variable {U : Type} [LawfulUnicorn U] {b : Build} {v : Vcpu U}

theorem syscallHook_eq {res : Outcome DispatchError SyscallOutcome}
    {d : Dispatch (UnicornGuest U)} {ctx : Context (UnicornGuest U)}
    (h : Dispatch.dispatch (Vcpu.hookRegs v.uc) (v.dispatch, Vcpu.hookContext v.uc) = (res, d, ctx))
    (hres : res.Returns) :
    Vcpu.syscallHook v = (.ok (), Vcpu.answer { v with
      uc := ctx.mem.uc
      dispatch := d
      shared := { v.shared with output := v.shared.output ++ ctx.io.combined } } res) := by
  unfold Vcpu.syscallHook
  rw [h]
  cases res with
  | ok o => rfl
  | err e => rfl
  | fault p => exact absurd hres (Outcome.not_returns_fault p)

/-- What one delivery does to the three records and to the engine. -/
structure Step (b : Build) (v v' : Vcpu U) (e : Event U) : Prop where
  stage1 : IsStage1 b v'.dispatch
  output : v'.output = v.output ++ e.written
  trace : ∀ sink, v.dispatch.trace = some sink → ∃ new,
    v'.dispatch.trace = some ⟨sink.records ++ new⟩ ∧ writeTotal new = e.written.length
  stops : e.Terminates → LawfulUnicorn.stopRequested v'.uc = true
  answers : ¬e.Terminates → ∃ ret, e.outcome = .ok (.ret ret) ∧
    Unicorn.regRead v'.uc .RAX = .ok (BitVec.ofInt 64 ret)
  exits : e.regs.IsExit → e.outcome = .ok (.exit (.exit e.regs.exitCode))
  fails : e.Fails → ∃ d, e.outcome = .err d ∧ d.toString = readFailed

theorem regRead_rax (uc : U) (val : U64) :
    Unicorn.regRead (Unicorn.regWrite .RAX val uc).2 .RAX = .ok val := by
  obtain ⟨uc', h⟩ := LawfulUnicorn.regWrite_ok uc (r := .RAX) trivial val
  rw [h]
  exact LawfulUnicorn.regRead_regWrite trivial h

theorem written_of_not_writes {e : Event U} (h : ¬e.Writes) : e.written = [] := if_neg h

theorem step_exit (hd : IsStage1 b v.dispatch) (he : v.event.regs.IsExit) :
    ∃ v', Vcpu.syscallHook v = (.ok (), v') ∧ Step b v v' v.event := by
  have hnotw : ¬v.event.regs.IsStreamWrite := not_streamWrite_of_exit _ he
  have hwritten : v.event.written = [] := written_of_not_writes fun h => hnotw h.1
  have hrun := Dispatch.dispatch_ok v.dispatch (Vcpu.hookContext v.uc) _ (Vcpu.hookRegs v.uc) _
    (handle_exit b hd _ he (Vcpu.hookContext v.uc))
  have hout : v.event.outcome = .ok (.exit (.exit v.event.regs.exitCode)) :=
    congrArg Prod.fst hrun
  refine ⟨_, syscallHook_eq hrun (Outcome.returns_ok _), ?_⟩
  constructor
  case exits => exact fun _ => hout
  case stage1 => exact (Dispatch.traced_handlers ..).trans hd
  case output =>
    rw [hwritten]
    rfl
  case trace =>
    intro sink hsink
    obtain ⟨rec, htrace, hname, -⟩ := traced_records hsink (Vcpu.hookRegs v.uc)
      (.exit (.exit (Vcpu.hookRegs v.uc).exitCode))
    refine ⟨[rec], htrace, ?_⟩
    rw [hwritten]
    exact writeTotal_of_name (hname ▸ nameOf_exit hd he)
  case stops => exact fun _ => LawfulUnicorn.stopRequested_emuStop _
  case answers => exact fun h => absurd (Or.inl he) h
  case fails => exact fun h => absurd h.1 hnotw

theorem step_write (hd : IsStage1 b v.dispatch) (hw : v.event.Writes)
    (hcount : v.event.regs.count ≤ isizeMax) :
    ∃ v', Vcpu.syscallHook v = (.ok (), v') ∧ Step b v v' v.event := by
  have hnote : ¬v.event.regs.IsExit := fun he => not_streamWrite_of_exit _ he hw.1
  have hnotf : ¬v.event.Fails := fun hf => hf.2 hw.2
  have hwritten : v.event.written = v.event.buffer := if_pos hw
  have hread : GuestMemory.read b (⟨v.uc⟩ : UnicornGuest U) v.event.regs.arg1 v.event.regs.count =
      .ok v.event.buffer := by
    rcases guest_read_cases b v.uc v.event.regs.arg1 hcount with ⟨-, h⟩ | ⟨h, -⟩
    · exact h
    · exact absurd hw.2 h
  have hlen : v.event.buffer.length = v.event.regs.count := length_memBytes ..
  have hhandle := handle_write b hd _ hw.1 (Vcpu.hookContext v.uc)
  rw [show (Vcpu.hookContext v.uc).mem = ⟨v.uc⟩ from rfl, hread] at hhandle
  simp only [toInt_length _ (hlen ▸ hcount)] at hhandle
  have hrun := Dispatch.dispatch_ok v.dispatch (Vcpu.hookContext v.uc) _ (Vcpu.hookRegs v.uc) _
    hhandle
  have hout : v.event.outcome = .ok (.ret v.event.buffer.length) := congrArg Prod.fst hrun
  refine ⟨_, syscallHook_eq hrun (Outcome.returns_ok _), ?_⟩
  constructor
  case stage1 => exact (Dispatch.traced_handlers ..).trans hd
  case output =>
    rw [hwritten]
    exact congrArg (v.output ++ ·) (OutputCapture.combined_write_default hw.1.2 v.event.buffer)
  case trace =>
    intro sink hsink
    obtain ⟨rec, htrace, hname, hret⟩ := traced_records hsink (Vcpu.hookRegs v.uc)
      (.ret v.event.buffer.length)
    refine ⟨[rec], htrace, ?_⟩
    have hnr : (Vcpu.hookRegs v.uc).syscallNr = 1 := hw.1.1
    rw [hnr, nameOf_write hd] at hname
    change rec.ret = (v.event.buffer.length : ℤ) at hret
    rw [hwritten, writeTotal_of_write hname (by omega), hret]
  case stops => exact fun h => absurd h (not_or.mpr ⟨hnote, hnotf⟩)
  case answers => exact fun _ => ⟨_, hout, regRead_rax _ _⟩
  case exits => exact fun he => absurd he hnote
  case fails => exact fun hf => absurd hf hnotf

theorem step_fail (hd : IsStage1 b v.dispatch) (hf : v.event.Fails)
    (hcount : v.event.regs.count ≤ isizeMax) :
    ∃ v', Vcpu.syscallHook v = (.ok (), v') ∧ Step b v v' v.event := by
  have hnote : ¬v.event.regs.IsExit := fun he => not_streamWrite_of_exit _ he hf.1
  have hwritten : v.event.written = [] := written_of_not_writes fun h => hf.2 h.2
  obtain ⟨e, hread⟩ : ∃ e, GuestMemory.read b (⟨v.uc⟩ : UnicornGuest U) v.event.regs.arg1
      v.event.regs.count = .err e := by
    rcases guest_read_cases b v.uc v.event.regs.arg1 hcount with ⟨h, -⟩ | ⟨-, h⟩
    · exact absurd h hf.2
    · exact h
  have hhandle := handle_write b hd _ hf.1 (Vcpu.hookContext v.uc)
  rw [show (Vcpu.hookContext v.uc).mem = ⟨v.uc⟩ from rfl, hread] at hhandle
  have hrun := Dispatch.dispatch_err v.dispatch (Vcpu.hookContext v.uc) _ (Vcpu.hookRegs v.uc) _
    hhandle
  have hout : v.event.outcome = .err (.engine "guest memory read failed") := congrArg Prod.fst hrun
  refine ⟨_, syscallHook_eq hrun (Outcome.returns_err _), ?_⟩
  constructor
  case stage1 => exact hd
  case output =>
    rw [hwritten]
    rfl
  case trace =>
    intro sink hsink
    refine ⟨[], ?_, ?_⟩
    · rw [List.append_nil]
      exact hsink
    · rw [hwritten]
      rfl
  case stops => exact fun _ => LawfulUnicorn.stopRequested_emuStop _
  case answers => exact fun h => absurd (Or.inr hf) h
  case exits => exact fun he => absurd he hnote
  case fails => exact fun _ => ⟨_, hout, rfl⟩

theorem step_refused (hd : IsStage1 b v.dispatch) (hw : ¬v.event.regs.IsStreamWrite)
    (he : ¬v.event.regs.IsExit) :
    ∃ v', Vcpu.syscallHook v = (.ok (), v') ∧ Step b v v' v.event := by
  have hnotf : ¬v.event.Fails := fun hf => hw hf.1
  have hwritten : v.event.written = [] := written_of_not_writes fun h => hw h.1
  have hrun := Dispatch.dispatch_ok v.dispatch (Vcpu.hookContext v.uc) _ (Vcpu.hookRegs v.uc) _
    (handle_refused b hd _ hw he (Vcpu.hookContext v.uc))
  have hout : v.event.outcome = .ok (.ret (if v.event.regs.syscallNr = 1 then err EBADF
      else err ENOSYS)) := congrArg Prod.fst hrun
  refine ⟨_, syscallHook_eq hrun (Outcome.returns_ok _), ?_⟩
  constructor
  case stage1 => exact (Dispatch.traced_handlers ..).trans hd
  case output =>
    rw [hwritten]
    rfl
  case trace =>
    intro sink hsink
    obtain ⟨rec, htrace, -, hret⟩ := traced_records hsink (Vcpu.hookRegs v.uc)
      (.ret (if (Vcpu.hookRegs v.uc).syscallNr = 1 then err EBADF else err ENOSYS))
    refine ⟨[rec], htrace, ?_⟩
    rw [hwritten]
    apply writeTotal_of_neg
    rw [hret]
    show (if (Vcpu.hookRegs v.uc).syscallNr = 1 then err EBADF else err ENOSYS) < 0
    split_ifs <;> decide
  case stops => exact fun h => absurd h (not_or.mpr ⟨he, hnotf⟩)
  case answers => exact fun _ => ⟨_, hout, regRead_rax _ _⟩
  case exits => exact fun h => absurd h he
  case fails => exact fun hf => absurd hf hnotf

theorem hook_step (hd : IsStage1 b v.dispatch)
    (hcount : v.event.regs.IsStreamWrite → v.event.regs.count ≤ isizeMax) :
    ∃ v', Vcpu.syscallHook v = (.ok (), v') ∧ Step b v v' v.event := by
  by_cases he : v.event.regs.IsExit
  · exact step_exit hd he
  by_cases hw : v.event.regs.IsStreamWrite
  · by_cases hr : v.event.Readable
    · exact step_write hd ⟨hw, hr⟩ (hcount hw)
    · exact step_fail hd ⟨hw, hr⟩ (hcount hw)
  · exact step_refused hd hw he

end Step

/-! ### A whole run -/

section Run
variable {U : Type} [LawfulUnicorn U]

/-- What a run from `v` to `v'` with the given events and status is known to do. -/
structure Story (v v' : Vcpu U) (events : List (Event U)) (status : Except String Unit) : Prop where
  output : v'.output = v.output ++ events.flatMap Event.written
  trace : ∀ sink, v.dispatch.trace = some sink → ∃ new,
    v'.dispatch.trace = some ⟨sink.records ++ new⟩ ∧
      writeTotal new = (events.flatMap Event.written).length
  answers : ∀ e ∈ events, ¬e.Terminates → ∃ ret, e.outcome = .ok (.ret ret) ∧
    Unicorn.regRead e.after .RAX = .ok (BitVec.ofInt 64 ret)
  exits : ∀ e ∈ events, e.regs.IsExit → e.outcome = .ok (.exit (.exit e.regs.exitCode))
  fails : ∀ e ∈ events, e.Fails → ∃ d, e.outcome = .err d ∧ d.toString = readFailed
  running : ∀ e ∈ events.dropLast, ¬e.Terminates
  stopped : ∀ e, events.getLast? = some e → e.Terminates → status = .ok ()
  worded : ∀ msg, status = .error msg → msg ≠ readFailed

theorem story_done {v : Vcpu U} (uc : U) {status : Except String Unit}
    (h : ∀ msg, status = .error msg → msg ≠ readFailed) :
    Story v { v with uc := uc } [] status where
  output := (List.append_nil _).symm
  trace sink hsink := ⟨[], by rw [List.append_nil]; exact hsink, rfl⟩
  answers := by simp
  exits := by simp
  fails := by simp
  running := by simp
  stopped := by simp
  worded := h

theorem story_cons {b : Build} {v v₁ v' : Vcpu U} {e : Event U} {es : List (Event U)}
    {status : Except String Unit} (hstep : Step b v v₁ e) (hafter : e.after = v₁.uc)
    (hcont : e.Terminates → es = [] ∧ status = .ok ()) (hrest : Story v₁ v' es status) :
    Story v v' (e :: es) status := by
  constructor
  case worded => exact hrest.worded
  case output => rw [hrest.output, hstep.output, List.flatMap_cons, List.append_assoc]
  case trace =>
    intro sink hsink
    obtain ⟨new, htrace, htotal⟩ := hstep.trace sink hsink
    obtain ⟨rest, htrace', htotal'⟩ := hrest.trace _ htrace
    refine ⟨new ++ rest, by rw [htrace', List.append_assoc], ?_⟩
    rw [writeTotal_append, htotal, htotal', List.flatMap_cons, List.length_append, Nat.cast_add]
  case answers =>
    refine List.forall_mem_cons.mpr ⟨fun hnot => ?_, hrest.answers⟩
    rw [hafter]
    exact hstep.answers hnot
  case exits => exact List.forall_mem_cons.mpr ⟨hstep.exits, hrest.exits⟩
  case fails => exact List.forall_mem_cons.mpr ⟨hstep.fails, hrest.fails⟩
  case running =>
    intro f hf hterm
    cases es with
    | nil => cases hf
    | cons g es =>
      rw [List.dropLast_cons_of_ne_nil (List.cons_ne_nil g es)] at hf
      rcases List.mem_cons.mp hf with rfl | hf
      · cases (hcont hterm).1
      · exact hrest.running f hf hterm
  case stopped =>
    intro f hf hterm
    cases es with
    | nil =>
      rw [List.getLast?_singleton, Option.some.injEq] at hf
      exact (hcont (hf ▸ hterm)).2
    | cons g es =>
      rw [List.getLast?_cons_cons] at hf
      exact hrest.stopped f hf hterm

theorem emulate_story_fitting {b : Build} (exec : Execution U) {v : Vcpu U} (hobeys : exec.Obeys)
    (hd : IsStage1 b v.dispatch)
    (hcount : ∀ e ∈ Vcpu.events exec v, e.regs.IsStreamWrite → e.regs.count ≤ isizeMax) :
    ∃ status v', Vcpu.emulate exec v = (.ok status, v') ∧
      Story v v' (Vcpu.events exec v) status := by
  induction exec generalizing v with
  | done uc status => exact ⟨status, { v with uc := uc }, rfl, story_done uc hobeys⟩
  | syscall uc resume ih =>
    rw [Vcpu.events] at hcount ⊢
    have hfirst := hcount _ (List.mem_cons_self ..)
    obtain ⟨v₁, hrun, hstep⟩ := hook_step (v := { v with uc := uc }) hd hfirst
    have hafter : ({ v with uc := uc } : Vcpu U).event.after = v₁.uc := by
      show (Vcpu.syscallHook { v with uc := uc }).2.uc = v₁.uc
      rw [hrun]
    simp only [hrun] at hcount ⊢
    rw [Vcpu.emulate_syscall, hrun]
    obtain ⟨status, v', hrest, hstory⟩ := ih v₁.uc (hobeys v₁.uc).1 hstep.stage1
      fun e he => hcount e (List.mem_cons_of_mem _ he)
    refine ⟨status, v', hrest, ?_⟩
    have hstep' : Step b v v₁ ({ v with uc := uc } : Vcpu U).event :=
      ⟨hstep.stage1, hstep.output, hstep.trace, hstep.stops, hstep.answers, hstep.exits, hstep.fails⟩
    refine story_cons hstep' hafter (fun hterm => ?_) hstory
    -- a delivery that ended the run was the last
    obtain ⟨uc', hdone⟩ := (hobeys v₁.uc).2 (hstep.stops hterm)
    rw [hdone] at hrest ⊢
    cases hrest
    exact ⟨rfl, rfl⟩

theorem emulate_story {b : Build} (exec : Execution U) {v : Vcpu U} (hobeys : exec.Obeys)
    (hd : IsStage1 b v.dispatch) (hcount : ∀ e ∈ Vcpu.events exec v, e.regs.count ≤ isizeMax) :
    ∃ status v', Vcpu.emulate exec v = (.ok status, v') ∧
      Story v v' (Vcpu.events exec v) status :=
  emulate_story_fitting exec hobeys hd fun e he _ => hcount e he

theorem Story.unslotted {v v' : Vcpu U} {events : List (Event U)} {status : Except String Unit}
    (h : Story v v' events status) {e : Event U} (he : e ∈ events) (hrun : ¬e.Terminates) :
    e.exit? = none ∧ e.error? = none := by
  obtain ⟨ret, hret, -⟩ := h.answers e he hrun
  exact Event.unslotted_of_ret hret

theorem story_slots {v v' : Vcpu U} {events : List (Event U)} {status : Except String Unit}
    (h : Story v v' events status) :
    lastExit events = events.getLast?.bind Event.exit? ∧
      lastError events = events.getLast?.bind Event.error? := by
  rcases List.eq_nil_or_concat events with rfl | ⟨init, e, rfl⟩
  · exact ⟨rfl, rfl⟩
  rw [List.concat_eq_append] at h ⊢
  have hinit : ∀ f ∈ init, f.exit? = none ∧ f.error? = none := by
    intro f hf
    have hrun := h.running f (by rw [List.dropLast_concat]; exact hf)
    exact h.unslotted (List.mem_append_left _ hf) hrun
  have hexit : lastExit init = none := by
    rw [lastExit, List.getLast?_eq_none_iff, List.filterMap_eq_nil_iff]
    exact fun f hf => (hinit f hf).1
  have herr : lastError init = none := by
    rw [lastError, List.getLast?_eq_none_iff, List.filterMap_eq_nil_iff]
    exact fun f hf => (hinit f hf).2
  rw [lastExit_append, lastError_append, hexit, herr, lastExit_cons, lastError_cons,
    List.getLast?_concat, Option.or_none, Option.or_none]
  exact ⟨rfl, rfl⟩

/-- Output, trace and result of a run tell one story. -/
structure Consistent (sink : TraceSink) (events : List (Event U))
    (result : Outcome VcpuError ExitReason) (v' : Vcpu U) : Prop where
  output : v'.output = events.flatMap Event.written
  trace : ∃ new, v'.dispatch.trace = some ⟨sink.records ++ new⟩ ∧
    writeTotal new = v'.output.length
  answers : ∀ e ∈ events, ¬e.Terminates → ∃ ret, e.outcome = .ok (.ret ret) ∧
    Unicorn.regRead e.after .RAX = .ok (BitVec.ofInt 64 ret)
  exit_iff : ∀ code, result = .ok (.exit code) ↔
    ∃ e, events.getLast? = some e ∧ e.regs.IsExit ∧ code.toNat = e.regs.arg0.toNat % 256
  error_iff : result = .err (.exec readFailed) ↔ ∃ e, events.getLast? = some e ∧ e.Fails
  running : ∀ e ∈ events.dropLast, ¬e.Terminates

theorem verdict_of_story {v v' : Vcpu U} {events : List (Event U)} {status : Except String Unit}
    (h : Story v v' events status) (hexit : v'.shared.exitReason = lastExit events)
    (herr : v'.shared.engineError = lastError events) :
    (∃ e, events.getLast? = some e ∧ e.regs.IsExit ∧
      v'.verdict status = .ok (.exit e.regs.exitCode)) ∨
    (∃ e, events.getLast? = some e ∧ e.Fails ∧ v'.verdict status = .err (.exec readFailed)) ∨
    ((∀ e, events.getLast? = some e → ¬e.Terminates) ∧
      (∀ code, v'.verdict status ≠ .ok (.exit code)) ∧
      v'.verdict status ≠ .err (.exec readFailed)) := by
  obtain ⟨hlast, hlasterr⟩ := story_slots h
  rw [hlast] at hexit
  rw [hlasterr] at herr
  by_cases hterm : ∃ e, events.getLast? = some e ∧ e.Terminates
  · obtain ⟨e, he, hend⟩ := hterm
    have hok := h.stopped e he hend
    have hmem := List.mem_of_getLast? he
    rw [he, Option.bind_some] at hexit herr
    rcases hend with hx | hf
    · refine Or.inl ⟨e, he, hx, ?_⟩
      rw [Event.exit?_eq_some.mpr (h.exits e hmem hx)] at hexit
      rw [hok, Vcpu.verdict, hexit]
    · refine Or.inr (Or.inl ⟨e, he, hf, ?_⟩)
      obtain ⟨d, hd, htext⟩ := h.fails e hmem hf
      have hnone : e.exit? = none := by simp [Event.exit?, hd]
      rw [hnone] at hexit
      rw [Event.error?_eq_some.mpr ⟨d, hd, htext⟩] at herr
      rw [hok, Vcpu.verdict, hexit, herr]
  · push Not at hterm
    refine Or.inr (Or.inr ⟨hterm, ?_⟩)
    have hnone : events.getLast?.bind Event.exit? = none ∧
        events.getLast?.bind Event.error? = none := by
      cases he : events.getLast? with
      | none => exact ⟨rfl, rfl⟩
      | some e => exact h.unslotted (List.mem_of_getLast? he) (hterm e he)
    rw [hnone.1] at hexit
    rw [hnone.2] at herr
    cases status with
    | error msg =>
      have hmsg := h.worded msg rfl
      simp only [Vcpu.verdict]
      split_ifs <;> simp [hmsg]
    | ok _ => simp [Vcpu.verdict, hexit, herr]

/-- The first run of a `Vcpu` with the stage-1 handlers and a sink attached. -/
theorem run_consistent (b : Build) (sink : TraceSink) (v : Vcpu U)
    (hfresh : v.shared = SharedState.new) (hdispatch : v.dispatch = stage1 b (some sink))
    (timeoutMs : U64) (emuStart : EmuCall → U → Execution U)
    (hobeys : (v.execution timeoutMs emuStart).Obeys)
    (hcount : ∀ e ∈ Vcpu.events (v.execution timeoutMs emuStart) v, e.regs.count ≤ isizeMax) :
    Consistent sink (Vcpu.events (v.execution timeoutMs emuStart) v)
      (Vcpu.run timeoutMs emuStart v).1 (Vcpu.run timeoutMs emuStart v).2 := by
  have hd : IsStage1 b v.dispatch := hdispatch ▸ stage1_isStage1 b (some sink)
  obtain ⟨status, v', hrun, hstory⟩ := emulate_story _ hobeys hd hcount
  obtain ⟨hexit, herr⟩ := Vcpu.emulate_slots (v.execution timeoutMs emuStart) v
  rw [hrun, hfresh] at hexit herr
  simp only [SharedState.new, Option.or_none] at hexit herr
  rw [Vcpu.run_of_emulate hrun]
  have hout : v'.output = (Vcpu.events (v.execution timeoutMs emuStart) v).flatMap Event.written := by
    have hempty : v.output = [] := congrArg SharedState.output hfresh
    rw [hstory.output, hempty, List.nil_append]
  obtain ⟨new, htrace, htotal⟩ := hstory.trace sink (hdispatch ▸ rfl)
  have hres := verdict_of_story hstory hexit herr
  refine ⟨hout, ⟨new, htrace, ?_⟩, hstory.answers, fun code => ?_, ?_, hstory.running⟩
  · rw [htotal, hout]
  · rcases hres with ⟨e, he, hx, hval⟩ | ⟨e, he, hf, hval⟩ | ⟨hnot, hval, -⟩
    · rw [hval, he]
      simp only [Outcome.ok.injEq, ExitReason.exit.injEq, Option.some.injEq, exists_eq_left', hx,
        true_and, ← SyscallRegs.exitCode_toNat, BitVec.toNat_inj, eq_comm]
    · rw [hval, he]
      have hnot : ¬e.regs.IsExit := fun hx => not_streamWrite_of_exit _ hx hf.1
      simp [hnot]
    · refine ⟨fun h => absurd h (hval code), ?_⟩
      intro h
      obtain ⟨e, he, hx, -⟩ := h
      exact absurd (Or.inl hx) (hnot e he)
  · rcases hres with ⟨e, he, hx, hval⟩ | ⟨e, he, hf, hval⟩ | ⟨hnot, -, hval⟩
    · rw [hval, he]
      have hnot : ¬e.Fails := fun hf => not_streamWrite_of_exit _ hx hf.1
      simp [hnot]
    · exact ⟨fun _ => ⟨e, he, hf⟩, fun _ => hval⟩
    · refine ⟨fun h => absurd h hval, ?_⟩
      intro h
      obtain ⟨e, he, hf⟩ := h
      exact absurd (Or.inr hf) (hnot e he)

end Run

def hiEngine : FlatEngine :=
  { FlatEngine.new with
    mappings := [⟨0x1000, 0x1000, Prot.READ⟩]
    byte := fun a => if a = 0x1000 then 0x68 else 0x69 }

def hiVcpu : Vcpu FlatEngine := Vcpu.new (stage1 .debug (some TraceSink.new)) hiEngine

/-- `write(1, 0x1000, 2)`, then `exit_group(7)` unless told to stop. -/
def hiThenExit (_ : EmuCall) (e : FlatEngine) : Execution FlatEngine :=
  .syscall { e with reg := fun
    | .RAX => 1
    | .RDI => 1
    | .RSI => 0x1000
    | .RDX => 2
    | _ => 0 } fun e =>
  if e.stopped then .done e (.ok ())
  else .syscall { e with reg := fun
    | .RAX => 231
    | .RDI => 7
    | _ => 0 } fun e => .done e (.ok ())

theorem hiThenExit_obeys : (hiVcpu.execution 0 hiThenExit).Obeys := by
  intro uc
  dsimp only
  by_cases hstop : uc.stopped = true
  · rw [if_pos hstop]
    exact ⟨Execution.obeys_done uc, fun _ => ⟨uc, rfl⟩⟩
  · rw [if_neg hstop]
    exact ⟨fun uc' => ⟨Execution.obeys_done uc', fun _ => ⟨uc', rfl⟩⟩, fun h => absurd h hstop⟩

example : (Vcpu.run 0 hiThenExit hiVcpu).1 = .ok (.exit 7) ∧
    (Vcpu.run 0 hiThenExit hiVcpu).2.output = [0x68, 0x69] := by
  decide +kernel

theorem hi_run_consistent :
    Consistent TraceSink.new (Vcpu.events (hiVcpu.execution 0 hiThenExit) hiVcpu)
      (Vcpu.run 0 hiThenExit hiVcpu).1 (Vcpu.run 0 hiThenExit hiVcpu).2 :=
  run_consistent .debug TraceSink.new hiVcpu rfl rfl 0 hiThenExit hiThenExit_obeys
    (by decide +kernel)

end WinVpwn.Cpu

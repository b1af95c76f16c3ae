import WinVpwn.Cpu.Events
import WinVpwn.Vkernel.Mem

/-!
# Whose result a run reports

The exit and error slots are written by the hook and never cleared, so a run
reports what its own syscalls came to unless an earlier run of the same `Vcpu`
left something there that this one does not cover.
-/

namespace WinVpwn.Cpu
open Rust WinVpwn.Elf WinVpwn.Syscall WinVpwn.Vkernel

/-! ### Sequences of calls -/

inductive Op (U : Type) where
  | run (timeoutMs : U64) (emuStart : EmuCall → U → Execution U)
  | setReg (reg : RegisterX86) (value : U64)
  | writeGuest (addr : U64) (data : List U8)
  | mapMemory (base size : U64) (prot : Prot)
  | mapElf (image : LoadedElf)
  | setupInitialState (entry stackTop : U64)

section Ops
variable {U : Type} [Unicorn U]

/-- The state after a call, whatever it returns. -/
def Op.exec (b : Build) (v : Vcpu U) : Op U → Vcpu U
  | .run timeoutMs emuStart => (Vcpu.run timeoutMs emuStart v).2
  | .setReg reg value => (Vcpu.setReg reg value v).2
  | .writeGuest addr data => (Vcpu.writeGuest addr data v).2
  | .mapMemory base size prot => (Vcpu.mapMemory b base size prot v).2
  | .mapElf image => (Vcpu.mapElf b image v).2
  | .setupInitialState entry stackTop => (Vcpu.setupInitialState b entry stackTop v).2

def Op.events (v : Vcpu U) : Op U → List (Event U)
  | .run timeoutMs emuStart => v.events (v.execution timeoutMs emuStart)
  | _ => []

def execAll (b : Build) (ops : List (Op U)) (v : Vcpu U) : Vcpu U := ops.foldl (Op.exec b) v

def eventsAll (b : Build) : List (Op U) → Vcpu U → List (Event U)
  | [], _ => []
  | op :: ops, v => op.events v ++ eventsAll b ops (op.exec b v)

/-! ### What a sequence leaves in the slots -/

omit [Unicorn U] in
theorem keeps_onEngine {α : Type} (f : String → VcpuError) (call : U → Except String α × U) :
    Act.Keeps Vcpu.shared (Vcpu.onEngine f call) := fun _ => rfl

theorem keeps_mapRange (b : Build) (base size : U64) (flags : U32) (prot : Prot) :
    Act.Keeps Vcpu.shared (Vcpu.mapRange b base size flags prot : Act (Vcpu U) VcpuError Unit) :=
  Act.keeps_bind (fun _ => rfl) fun _ => keeps_onEngine _ _

theorem keeps_mapMemory (b : Build) (base size : U64) (prot : Prot) :
    Act.Keeps Vcpu.shared (Vcpu.mapMemory b base size prot : Act (Vcpu U) VcpuError Unit) :=
  Act.keeps_bind (keeps_mapRange b base size 0 prot) fun _ _ => rfl

theorem keeps_mapSegment (b : Build) (seg : Segment) :
    Act.Keeps Vcpu.shared (Vcpu.mapSegment b seg : Act (Vcpu U) VcpuError Unit) := by
  refine Act.keeps_bind (Act.keeps_lift _ _) fun range => ?_
  refine Act.keeps_bind (keeps_mapRange b range.1 range.2 _ _) fun _ => ?_
  refine Act.keeps_bind (Act.keeps_lift _ _) fun offset => ?_
  refine Act.keeps_bind (Act.keeps_lift _ _) fun data => ?_
  refine Act.keeps_bind (Act.keeps_lift _ _) fun addr => ?_
  exact Act.keeps_bind (keeps_onEngine _ _) fun _ _ => rfl

theorem keeps_setupInitialState (b : Build) (entry stackTop : U64) :
    Act.Keeps Vcpu.shared
      (Vcpu.setupInitialState b entry stackTop : Act (Vcpu U) VcpuError Unit) := by
  refine Act.keeps_bind (Act.keeps_lift _ _) fun argcAddr => ?_
  refine Act.keeps_bind (keeps_onEngine _ _) fun _ => ?_
  exact Act.keeps_bind (keeps_onEngine _ _) fun _ => keeps_onEngine _ _

theorem run_snd (timeoutMs : U64) (emuStart : EmuCall → U → Execution U) (v : Vcpu U) :
    (Vcpu.run timeoutMs emuStart v).2 =
      (Vcpu.emulate (v.execution timeoutMs emuStart) v).2 := by
  rw [Vcpu.run_eq]
  rcases Vcpu.emulate (v.execution timeoutMs emuStart) v with ⟨_ | _ | _, _⟩ <;> rfl

theorem exec_slots (b : Build) (v : Vcpu U) (op : Op U) :
    (op.exec b v).shared.exitReason = (lastExit (op.events v)).or v.shared.exitReason ∧
      (op.exec b v).shared.engineError = (lastError (op.events v)).or v.shared.engineError := by
  have keep : ∀ v' : Vcpu U, v'.shared = v.shared →
      v'.shared.exitReason = (lastExit ([] : List (Event U))).or v.shared.exitReason ∧
        v'.shared.engineError = (lastError ([] : List (Event U))).or v.shared.engineError :=
    fun v' h => h ▸ ⟨rfl, rfl⟩
  cases op with
  | run timeoutMs emuStart =>
    simp only [Op.exec, Op.events, run_snd]
    exact Vcpu.emulate_slots _ v
  | setReg reg value => exact keep _ (keeps_onEngine _ _ v)
  | writeGuest addr data => exact keep _ (keeps_onEngine _ _ v)
  | mapMemory base size prot => exact keep _ (keeps_mapMemory b base size prot v)
  | mapElf image => exact keep _ (Act.keeps_forM (keeps_mapSegment b) image.segments v)
  | setupInitialState entry stackTop => exact keep _ (keeps_setupInitialState b entry stackTop v)

theorem execAll_slots (b : Build) (ops : List (Op U)) (v : Vcpu U) :
    (execAll b ops v).shared.exitReason =
        (lastExit (eventsAll b ops v)).or v.shared.exitReason ∧
      (execAll b ops v).shared.engineError =
        (lastError (eventsAll b ops v)).or v.shared.engineError := by
  induction ops generalizing v with
  | nil => exact ⟨rfl, rfl⟩
  | cons op ops ih =>
    obtain ⟨hexit, herr⟩ := exec_slots b v op
    obtain ⟨hexit', herr'⟩ := ih (op.exec b v)
    simp only [eventsAll, lastExit_append, lastError_append, Option.or_assoc]
    rw [← hexit, ← herr]
    exact ⟨hexit', herr'⟩

end Ops

/-! ### The report of a run -/

section Report
variable {U : Type} [Unicorn U]

/-- What a run reports of a status and of its own syscalls: an exit before an
error, an error before a stop. -/
def report (status : Except String Unit) (rip : U64) (events : List (Event U)) :
    Outcome VcpuError ExitReason :=
  match status with
  | .error msg => if Vcpu.isFalloff msg then .ok (.falloff rip) else .err (.exec msg)
  | .ok () =>
    match lastExit events, lastError events with
    | some reason, _ => .ok reason
    | none, some e => .err (.exec e)
    | none, none => .ok .stopped

def Exits (events : List (Event U)) : Prop := ∃ e ∈ events, ∃ r, e.outcome = .ok (.exit r)

def Errs (events : List (Event U)) : Prop := ∃ e ∈ events, ∃ d, e.outcome = .err d

/-- The run that left `v'` reported about itself: the result is determined by the
status and the syscalls of this run, and so is `exit_reason()` afterwards. -/
structure OwnReport (events : List (Event U)) (status : Except String Unit) (v' : Vcpu U)
    (result : Outcome VcpuError ExitReason) : Prop where
  determined : result = report status (regReadOrZero v'.uc .RIP) events
  exit : ∀ code, result = .ok (.exit code) → ∃ e ∈ events, e.outcome = .ok (.exit (.exit code))
  error : status = .ok () → ∀ msg, result = .err (.exec msg) →
    ∃ e ∈ events, ∃ d, e.outcome = .err d ∧ d.toString = msg
  unhidden : status = .ok () → Errs events → ∀ reason, result = .ok reason →
    ∃ e ∈ events, e.outcome = .ok (.exit reason)
  reason : ∀ r, v'.exitReason = some r → ∃ e ∈ events, e.outcome = .ok (.exit r)

/-- Nothing an earlier run recorded can show: it recorded no exit, or this run
records one, and it recorded no error, or this run ends in something that goes
before it. -/
structure Clean (past events : List (Event U)) (status : Except String Unit) : Prop where
  exit : ¬Exits past ∨ Exits events
  error : ¬Errs past ∨ status ≠ .ok () ∨ Exits events ∨ Errs events

omit [Unicorn U] in
theorem lastExit_eq_none {events : List (Event U)} : lastExit events = none ↔ ¬Exits events := by
  unfold lastExit Exits
  rw [List.getLast?_eq_none_iff, List.filterMap_eq_nil_iff]
  push Not
  refine forall₂_congr fun e _ => ?_
  rw [Option.eq_none_iff_forall_ne_some]
  exact forall_congr' fun r => not_congr Event.exit?_eq_some

omit [Unicorn U] in
theorem lastError_eq_none {events : List (Event U)} : lastError events = none ↔ ¬Errs events := by
  unfold lastError Errs
  rw [List.getLast?_eq_none_iff, List.filterMap_eq_nil_iff]
  push Not
  refine forall₂_congr fun e _ => ?_
  rw [Option.eq_none_iff_forall_ne_some]
  constructor
  · exact fun h d hd => h d.toString (Event.error?_eq_some.mpr ⟨d, hd, rfl⟩)
  · intro h msg hmsg
    obtain ⟨d, hd, -⟩ := Event.error?_eq_some.mp hmsg
    exact h d hd

omit [Unicorn U] in
theorem lastExit_of_exits {events : List (Event U)} (h : Exits events) :
    ∃ r, lastExit events = some r :=
  Option.ne_none_iff_exists'.mp fun hnone => lastExit_eq_none.mp hnone h

omit [Unicorn U] in
theorem lastError_of_errs {events : List (Event U)} (h : Errs events) :
    ∃ e, lastError events = some e :=
  Option.ne_none_iff_exists'.mp fun hnone => lastError_eq_none.mp hnone h

omit [Unicorn U] in
theorem report_ok_cases (rip : U64) (events : List (Event U)) :
    (∃ r, lastExit events = some r ∧ report (.ok ()) rip events = .ok r) ∨
    (∃ e, lastExit events = none ∧ lastError events = some e ∧
      report (.ok ()) rip events = .err (.exec e)) ∨
    (lastExit events = none ∧ lastError events = none ∧
      report (.ok ()) rip events = .ok .stopped) := by
  unfold report
  rcases lastExit events with _ | r
  · rcases lastError events with _ | e
    · exact Or.inr (Or.inr ⟨rfl, rfl, rfl⟩)
    · exact Or.inr (Or.inl ⟨e, rfl, rfl, rfl⟩)
  · exact Or.inl ⟨r, rfl, rfl⟩

theorem ownReport_of_report {events : List (Event U)} {status : Except String Unit} {v' : Vcpu U}
    (hreason : v'.shared.exitReason = lastExit events) :
    OwnReport events status v' (report status (regReadOrZero v'.uc .RIP) events) := by
  refine ⟨rfl, ?_, ?_, ?_, fun r hr => exists_of_lastExit (hreason.symm.trans hr)⟩
  · intro code hcode
    cases status with
    | error msg =>
      simp only [report] at hcode
      split_ifs at hcode
      cases hcode
    | ok _ =>
      rcases report_ok_cases (regReadOrZero v'.uc .RIP) events with
        ⟨r, hlast, hrep⟩ | ⟨e, -, -, hrep⟩ | ⟨-, -, hrep⟩
      · rw [hrep, Outcome.ok.injEq] at hcode
        exact exists_of_lastExit (hcode ▸ hlast)
      · rw [hrep] at hcode
        cases hcode
      · rw [hrep] at hcode
        cases hcode
  · rintro rfl msg hmsg
    rcases report_ok_cases (regReadOrZero v'.uc .RIP) events with
      ⟨r, -, hrep⟩ | ⟨e, -, hlast, hrep⟩ | ⟨-, -, hrep⟩
    · rw [hrep] at hmsg
      cases hmsg
    · rw [hrep, Outcome.err.injEq, VcpuError.exec.injEq] at hmsg
      exact exists_of_lastError (hmsg ▸ hlast)
    · rw [hrep] at hmsg
      cases hmsg
  · rintro rfl herrs reason hres
    rcases report_ok_cases (regReadOrZero v'.uc .RIP) events with
      ⟨r, hlast, hrep⟩ | ⟨e, -, -, hrep⟩ | ⟨-, hlast, -⟩
    · rw [hrep, Outcome.ok.injEq] at hres
      exact exists_of_lastExit (hres ▸ hlast)
    · rw [hrep] at hres
      cases hres
    · exact absurd herrs (lastError_eq_none.mp hlast)

theorem verdict_eq_report {events : List (Event U)} {status : Except String Unit} {v' : Vcpu U}
    (hexit : v'.shared.exitReason = lastExit events)
    (herr : status = .ok () → lastExit events = none →
      v'.shared.engineError = lastError events) :
    v'.verdict status = report status (regReadOrZero v'.uc .RIP) events := by
  cases status with
  | error msg => rfl
  | ok _ =>
    unfold Vcpu.verdict report
    rw [hexit]
    cases hlast : lastExit events with
    | some r => rfl
    | none =>
      have hslot := herr rfl hlast
      cases herrs : lastError events with
      | none => simp only [hslot, herrs]
      | some e => simp only [hslot, herrs]

omit [Unicorn U] in
theorem Clean.exit_slot {past events : List (Event U)} {status : Except String Unit}
    (h : Clean past events status) : (lastExit events).or (lastExit past) = lastExit events := by
  rcases h.exit with hnone | hexits
  · rw [lastExit_eq_none.mpr hnone, Option.or_none]
  · obtain ⟨r, hr⟩ := lastExit_of_exits hexits
    rw [hr, Option.some_or]

omit [Unicorn U] in
theorem Clean.error_slot {past events : List (Event U)} {status : Except String Unit}
    (h : Clean past events status) (hok : status = .ok ()) (hnone : lastExit events = none) :
    (lastError events).or (lastError past) = lastError events := by
  rcases h.error with hpast | hbad | hexits | herrs
  · rw [lastError_eq_none.mpr hpast, Option.or_none]
  · exact absurd hok hbad
  · exact absurd hexits (lastExit_eq_none.mp hnone)
  · obtain ⟨e, he⟩ := lastError_of_errs herrs
    rw [he, Option.some_or]

/-! The slots after a run hold its own last exit and error, or those of the past. -/

section Slots
variable {past events : List (Event U)} {status : Except String Unit} {v' : Vcpu U}
  (hexit : v'.shared.exitReason = (lastExit events).or (lastExit past))
  (herr : v'.shared.engineError = (lastError events).or (lastError past))
include hexit herr

theorem Clean.ownReport (h : Clean past events status) :
    OwnReport events status v' (v'.verdict status) := by
  have hreason : v'.shared.exitReason = lastExit events := hexit.trans h.exit_slot
  have herror : status = .ok () → lastExit events = none →
      v'.shared.engineError = lastError events := by
    intro hok hnone
    exact herr.trans (h.error_slot hok hnone)
  rw [verdict_eq_report hreason herror]
  exact ownReport_of_report hreason

theorem OwnReport.clean (h : OwnReport events status v' (v'.verdict status)) :
    Clean past events status := by
  -- without an exit of its own the run finds no exit in the slot
  have hslot : ¬Exits events → v'.shared.exitReason = none := by
    intro hnone
    rw [Option.eq_none_iff_forall_ne_some]
    intro r hr
    obtain ⟨e, he, hout⟩ := h.reason r hr
    exact hnone ⟨e, he, r, hout⟩
  refine ⟨?_, ?_⟩
  · by_contra hstale
    rw [not_or, not_not] at hstale
    obtain ⟨r, hr⟩ := lastExit_of_exits hstale.1
    rw [hslot hstale.2, lastExit_eq_none.mpr hstale.2, hr] at hexit
    cases hexit
  · by_contra hstale
    simp only [not_or, not_not] at hstale
    obtain ⟨hpast, rfl, hnoexit, hnoerr⟩ := hstale
    obtain ⟨msg, hmsg⟩ := lastError_of_errs hpast
    rw [lastError_eq_none.mpr hnoerr, hmsg, Option.none_or] at herr
    have hres : v'.verdict (.ok ()) = .err (.exec msg) := by
      simp only [Vcpu.verdict, hslot hnoexit, herr]
    obtain ⟨e, he, d, hd, -⟩ := h.error rfl msg hres
    exact hnoerr ⟨e, he, d, hd⟩

end Slots

/-- A run on a `Vcpu` with any calls before it reports about itself exactly when
nothing an earlier run recorded can show. -/
theorem run_reports_itself_iff (b : Build) (dispatch : Dispatch (UnicornGuest U)) (uc : U)
    (pre : List (Op U)) (timeoutMs : U64) (emuStart : EmuCall → U → Execution U)
    (status : Except String Unit) (v' : Vcpu U)
    (hret : Vcpu.emulate
      ((execAll b pre (Vcpu.new dispatch uc)).execution timeoutMs emuStart)
      (execAll b pre (Vcpu.new dispatch uc)) = (.ok status, v')) :
    OwnReport ((Op.run timeoutMs emuStart).events (execAll b pre (Vcpu.new dispatch uc))) status
      (Vcpu.run timeoutMs emuStart (execAll b pre (Vcpu.new dispatch uc))).2
      (Vcpu.run timeoutMs emuStart (execAll b pre (Vcpu.new dispatch uc))).1 ↔
    Clean (eventsAll b pre (Vcpu.new dispatch uc))
      ((Op.run timeoutMs emuStart).events (execAll b pre (Vcpu.new dispatch uc))) status := by
  obtain ⟨hpast, hpast'⟩ := execAll_slots b pre (Vcpu.new dispatch uc)
  generalize execAll b pre (Vcpu.new dispatch uc) = v at *
  generalize eventsAll b pre (Vcpu.new dispatch uc) = past at *
  have hnew : (Vcpu.new dispatch uc).shared = SharedState.new := rfl
  rw [hnew] at hpast hpast'
  simp only [SharedState.new, Option.or_none] at hpast hpast'
  obtain ⟨hexit, herr⟩ := Vcpu.emulate_slots (v.execution timeoutMs emuStart) v
  rw [Vcpu.run_of_emulate hret]
  rw [hret, hpast] at hexit
  rw [hret, hpast'] at herr
  exact ⟨OwnReport.clean hexit herr, Clean.ownReport hexit herr⟩

/-- A guest that makes one call and stops when told to. -/
def oneCall (rax rdi rsi rdx : U64) (_ : EmuCall) (e : FlatEngine) : Execution FlatEngine :=
  .syscall { e with reg := fun
    | .RAX => rax
    | .RDI => rdi
    | .RSI => rsi
    | .RDX => rdx
    | _ => 0 } fun e => .done e (.ok ())

def exitedOnce : Vcpu FlatEngine :=
  execAll .release [.run 0 (oneCall 60 0 0 0)] (Vcpu.new (stage1 .release none) FlatEngine.new)

/- The second run makes one call, a write of unmapped memory, and reports the
exit of the first. -/
theorem second_run_reports_first :
    (Vcpu.run 0 (oneCall 1 1 0x1000 5) exitedOnce).1 = .ok (.exit 0) ∧
      ((Op.run 0 (oneCall 1 1 0x1000 5)).events exitedOnce).map Event.outcome =
        [.err (.engine "guest memory read failed")] := by
  decide +kernel

theorem second_exit_reported :
    OwnReport ((Op.run 0 (oneCall 231 7 0 0)).events exitedOnce) (.ok ())
      (Vcpu.run 0 (oneCall 231 7 0 0) exitedOnce).2 (Vcpu.run 0 (oneCall 231 7 0 0) exitedOnce).1 ↔
    Clean (eventsAll .release [.run 0 (oneCall 60 0 0 0)]
        (Vcpu.new (stage1 .release none) FlatEngine.new))
      ((Op.run 0 (oneCall 231 7 0 0)).events exitedOnce) (.ok ()) :=
  run_reports_itself_iff .release (stage1 .release none) FlatEngine.new
    [.run 0 (oneCall 60 0 0 0)] 0 (oneCall 231 7 0 0) (.ok ())
    (Vcpu.emulate (exitedOnce.execution 0 (oneCall 231 7 0 0)) exitedOnce).2
    (Prod.ext rfl rfl)

end Report
end WinVpwn.Cpu

import WinVpwn.Cpu.Vcpu

/-!
# The syscalls of a run

The events of one `emu_start` are the deliveries to the hook, each with the
engine before and after it and the result of its dispatch. What a run leaves in
the exit and error slots is a function of its events and of what was there.
-/

namespace WinVpwn.Cpu
open Rust WinVpwn.Syscall WinVpwn.Vkernel

structure Event (U : Type) where
  before : U
  outcome : Outcome DispatchError SyscallOutcome
  after : U

namespace Event
variable {U : Type}

def exit? (e : Event U) : Option ExitReason :=
  match e.outcome with
  | .ok (.exit reason) => some reason
  | _ => none

def error? (e : Event U) : Option String :=
  match e.outcome with
  | .err d => some d.toString
  | _ => none

theorem exit?_eq_some {e : Event U} {reason : ExitReason} :
    e.exit? = some reason ↔ e.outcome = .ok (.exit reason) := by
  unfold exit?
  rcases e.outcome with (_ | _) | _ | _ <;> simp

theorem error?_eq_some {e : Event U} {msg : String} :
    e.error? = some msg ↔ ∃ d, e.outcome = .err d ∧ d.toString = msg := by
  unfold error?
  rcases e.outcome with _ | _ | _ <;> simp

theorem unslotted_of_ret {e : Event U} {ret : ℤ} (h : e.outcome = .ok (.ret ret)) :
    e.exit? = none ∧ e.error? = none := by
  unfold exit? error?
  rw [h]
  exact ⟨rfl, rfl⟩

end Event

def lastExit {U : Type} (events : List (Event U)) : Option ExitReason :=
  (events.filterMap Event.exit?).getLast?

def lastError {U : Type} (events : List (Event U)) : Option String :=
  (events.filterMap Event.error?).getLast?

section Last
variable {U : Type}

theorem lastExit_append (es fs : List (Event U)) :
    lastExit (es ++ fs) = (lastExit fs).or (lastExit es) := by
  rw [lastExit, List.filterMap_append, List.getLast?_append]
  rfl

theorem lastError_append (es fs : List (Event U)) :
    lastError (es ++ fs) = (lastError fs).or (lastError es) := by
  rw [lastError, List.filterMap_append, List.getLast?_append]
  rfl

theorem lastExit_cons (e : Event U) (es : List (Event U)) :
    lastExit (e :: es) = (lastExit es).or e.exit? := by
  rw [← List.singleton_append, lastExit_append]
  unfold lastExit
  cases h : e.exit? <;> simp [h]

theorem lastError_cons (e : Event U) (es : List (Event U)) :
    lastError (e :: es) = (lastError es).or e.error? := by
  rw [← List.singleton_append, lastError_append]
  unfold lastError
  cases h : e.error? <;> simp [h]

theorem exists_of_lastExit {es : List (Event U)} {reason : ExitReason}
    (h : lastExit es = some reason) : ∃ e ∈ es, e.outcome = .ok (.exit reason) := by
  obtain ⟨e, he, hexit⟩ := List.mem_filterMap.mp (List.mem_of_getLast? h)
  exact ⟨e, he, Event.exit?_eq_some.mp hexit⟩

theorem exists_of_lastError {es : List (Event U)} {msg : String} (h : lastError es = some msg) :
    ∃ e ∈ es, ∃ d, e.outcome = .err d ∧ d.toString = msg := by
  obtain ⟨e, he, herr⟩ := List.mem_filterMap.mp (List.mem_of_getLast? h)
  exact ⟨e, he, Event.error?_eq_some.mp herr⟩

end Last

namespace Vcpu
variable {U : Type} [Unicorn U]

def hookOutcome (v : Vcpu U) : Outcome DispatchError SyscallOutcome :=
  (Dispatch.dispatch (hookRegs v.uc) (v.dispatch, hookContext v.uc)).1

def event (v : Vcpu U) : Event U where
  before := v.uc
  outcome := v.hookOutcome
  after := (syscallHook v).2.uc

/-- The events of one `emu_start`, up to one whose hook does not return. -/
def events : Execution U → Vcpu U → List (Event U)
  | .done _ _, _ => []
  | .syscall uc resume, v =>
    let v₀ := { v with uc := uc }
    let hook := syscallHook v₀
    v₀.event :: match hook.1 with
      | .ok () => events (resume hook.2.uc) hook.2
      | _ => []

theorem emulate_syscall (uc : U) (resume : U → Execution U) (v : Vcpu U) :
    emulate (.syscall uc resume) v =
      match syscallHook { v with uc := uc } with
      | (.ok (), v₁) => emulate (resume v₁.uc) v₁
      | (.err e, v₁) => (.err e, v₁)
      | (.fault p, v₁) => (.fault p, v₁) := by
  simp only [emulate, Act.bind_apply, Act.modify_apply, Act.get_apply]
  rcases syscallHook { v with uc := uc } with ⟨_ | _ | _, _⟩ <;> rfl

theorem syscallHook_slots (v : Vcpu U) :
    (syscallHook v).2.shared.exitReason =
        v.event.exit?.or v.shared.exitReason ∧
      (syscallHook v).2.shared.engineError =
        v.event.error?.or v.shared.engineError := by
  unfold syscallHook event Event.exit? Event.error? hookOutcome
  rcases Dispatch.dispatch (hookRegs v.uc) (v.dispatch, hookContext v.uc) with
    ⟨(_ | _) | _ | _, d, ctx⟩ <;> simp [answer]

theorem emulate_slots (exec : Execution U) (v : Vcpu U) :
    (emulate exec v).2.shared.exitReason =
        (lastExit (events exec v)).or v.shared.exitReason ∧
      (emulate exec v).2.shared.engineError =
        (lastError (events exec v)).or v.shared.engineError := by
  induction exec generalizing v with
  | done uc status => exact ⟨rfl, rfl⟩
  | syscall uc resume ih =>
    obtain ⟨hexit, herr⟩ := syscallHook_slots { v with uc := uc }
    rw [emulate_syscall, events]
    rcases hrun : syscallHook { v with uc := uc } with ⟨res, v₁⟩
    rw [hrun] at hexit herr
    cases res with
    | ok _ =>
      obtain ⟨hexit', herr'⟩ := ih v₁.uc v₁
      simp only [lastExit_cons, lastError_cons, Option.or_assoc]
      rw [hexit', herr', hexit, herr]
      exact ⟨rfl, rfl⟩
    | err e =>
      simpa [lastExit_cons, lastError_cons, lastExit, lastError] using And.intro hexit herr
    | fault p =>
      simpa [lastExit_cons, lastError_cons, lastExit, lastError] using And.intro hexit herr

def execution (v : Vcpu U) (timeoutMs : U64) (emuStart : EmuCall → U → Execution U) :
    Execution U :=
  emuStart ⟨regReadOrZero v.uc .RIP, 0xffffffffffffffff, timeoutMs, 0⟩ v.uc

theorem run_eq (timeoutMs : U64) (emuStart : EmuCall → U → Execution U) (v : Vcpu U) :
    run timeoutMs emuStart v = match emulate (v.execution timeoutMs emuStart) v with
      | (.ok status, v') => (v'.verdict status, v')
      | (.err e, v') => (.err e, v')
      | (.fault p, v') => (.fault p, v') := by
  simp only [run, execution, Act.bind_apply, Act.get_apply, Act.lift_apply]
  generalize emuStart ⟨_, _, timeoutMs, 0⟩ v.uc = exec
  rcases emulate exec v with ⟨_ | _ | _, _⟩ <;> rfl

theorem run_of_emulate {timeoutMs : U64} {emuStart : EmuCall → U → Execution U} {v v' : Vcpu U}
    {status : Except String Unit}
    (h : emulate (v.execution timeoutMs emuStart) v = (.ok status, v')) :
    run timeoutMs emuStart v = (v'.verdict status, v') := by
  rw [run_eq, h]

end Vcpu
end WinVpwn.Cpu

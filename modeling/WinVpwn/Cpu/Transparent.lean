import WinVpwn.Cpu.Lifetime
import WinVpwn.Cpu.RunStory

/-!
# What a syscall leaves alone

The guest goes on after a syscall as if nothing but `rax` had been written, in
every run of a life.
-/

namespace WinVpwn.Cpu
open Rust WinVpwn.Syscall WinVpwn.Vkernel WinVpwn.Trace

/-! ### A stage-1 handler and the engine -/

section Transparent
variable {U : Type} [Unicorn U] {b : Build}

theorem handle_mem {M : Type} [GuestMemory M] {d : Dispatch M} (hd : IsStage1 b d)
    (r : SyscallRegs) (ctx : Context M) : (d.handle r ctx).2.mem = ctx.mem := by
  by_cases he : r.IsExit
  · rw [handle_exit b hd r he]
  by_cases hw : r.IsStreamWrite
  · rw [handle_write b hd r hw]
    cases GuestMemory.read b ctx.mem r.arg1 r.count <;> rfl
  · rw [handle_refused b hd r hw he]

theorem dispatched_uc {v : Vcpu U} (hd : IsStage1 b v.dispatch) : v.dispatched.uc = v.uc := by
  have hctx := Dispatch.dispatch_ctx v.dispatch (Vcpu.hookContext v.uc) (Vcpu.hookRegs v.uc)
  have hmem := handle_mem hd (Vcpu.hookRegs v.uc) (Vcpu.hookContext v.uc)
  rw [← hctx] at hmem
  exact congrArg UnicornGuest.uc hmem

theorem hook_handlers (v : Vcpu U) :
    (Vcpu.syscallHook v).2.dispatch.handlers = v.dispatch.handlers := by
  rw [syscallHook_handled, (answer_keeps _ _).1]
  exact Dispatch.dispatch_handlers ..

theorem mem_events {exec : Execution U} {v : Vcpu U} {e : Event U} (he : e ∈ Vcpu.events exec v) :
    ∃ w : Vcpu U, e = w.event ∧ w.dispatch.handlers = v.dispatch.handlers := by
  induction exec generalizing v with
  | done uc status => cases he
  | syscall uc resume ih =>
    rw [Vcpu.events] at he
    rcases List.mem_cons.mp he with rfl | he
    · exact ⟨_, rfl, rfl⟩
    · cases hrun : (Vcpu.syscallHook { v with uc := uc }).1 with
      | ok _ =>
        rw [hrun] at he
        obtain ⟨w, hw, hsame⟩ := ih _ he
        exact ⟨w, hw, hsame.trans (hook_handlers { v with uc := uc })⟩
      | err e =>
        rw [hrun] at he
        cases he
      | fault p =>
        rw [hrun] at he
        cases he

theorem emulate_handlers (exec : Execution U) (v : Vcpu U) :
    (Vcpu.emulate exec v).2.dispatch.handlers = v.dispatch.handlers := by
  induction exec generalizing v with
  | done uc status => rfl
  | syscall uc resume ih =>
    have hhook := hook_handlers { v with uc := uc }
    rw [Vcpu.emulate_syscall]
    rcases hrun : Vcpu.syscallHook { v with uc := uc } with ⟨_ | e | p, v₁⟩
    · rw [hrun] at hhook
      exact (ih _ v₁).trans hhook
    · rw [hrun] at hhook
      exact hhook
    · rw [hrun] at hhook
      exact hhook

theorem exec_handlers (b : Build) (v : Vcpu U) (op : Op U) :
    (op.exec b v).dispatch.handlers = v.dispatch.handlers := by
  cases op with
  | run timeoutMs emuStart =>
    simp only [Op.exec, run_snd]
    exact emulate_handlers _ v
  | setReg reg value => exact congrArg _ (quiet_onEngine _ _ v).dispatch
  | writeGuest addr data => exact congrArg _ (quiet_onEngine _ _ v).dispatch
  | mapMemory base size prot => exact congrArg _ (quiet_mapMemory b base size prot v).dispatch
  | mapElf image =>
    have hmap : Act.Within Quiet (image.segments.forM (Vcpu.mapSegment b) : Act (Vcpu U) _ _) :=
      Act.within_forM Quiet.refl Quiet.trans fun seg _ => quiet_mapSegment b seg
    exact congrArg _ (hmap v).dispatch
  | setupInitialState entry stackTop =>
    exact congrArg _ (quiet_setupInitialState b entry stackTop v).dispatch

theorem mem_eventsAll {ops : List (Op U)} {v : Vcpu U} {e : Event U}
    (he : e ∈ eventsAll b ops v) :
    ∃ w : Vcpu U, e = w.event ∧ w.dispatch.handlers = v.dispatch.handlers := by
  induction ops generalizing v with
  | nil => cases he
  | cons op ops ih =>
    rw [eventsAll] at he
    rcases List.mem_append.mp he with he | he
    · cases op with
      | run timeoutMs emuStart => exact mem_events he
      | setReg reg value => cases he
      | writeGuest addr data => cases he
      | mapMemory base size prot => cases he
      | mapElf image => cases he
      | setupInitialState entry stackTop => cases he
    · obtain ⟨w, hw, hsame⟩ := ih he
      exact ⟨w, hw, hsame.trans (exec_handlers b v op)⟩

end Transparent

/-- A syscall that came back with `ret`: it is in `rax`, and no byte, mapping or
other named register has changed. -/
structure Transparent {U : Type} [LawfulUnicorn U] (e : Event U) (ret : ℤ) : Prop where
  space : LawfulUnicorn.space e.after = LawfulUnicorn.space e.before
  rax : Unicorn.regRead e.after .RAX = .ok (BitVec.ofInt 64 ret)
  others : ∀ r : RegisterX86, r.Named → r ≠ .RAX →
    Unicorn.regRead e.after r = Unicorn.regRead e.before r

section Transparent
variable {U : Type} [LawfulUnicorn U] {b : Build}

theorem event_transparent {v : Vcpu U} (hd : IsStage1 b v.dispatch) {ret : ℤ}
    (hout : v.event.outcome = .ok (.ret ret)) : Transparent v.event ret := by
  have hafter : v.event.after = (Unicorn.regWrite .RAX (BitVec.ofInt 64 ret) v.uc).2 := by
    show (Vcpu.syscallHook v).2.uc = _
    rw [syscallHook_handled, hout]
    show (Unicorn.regWrite .RAX _ v.dispatched.uc).2 = _
    rw [dispatched_uc hd]
  constructor
  case space =>
    rw [hafter]
    exact LawfulUnicorn.space_regWrite ..
  case rax =>
    rw [hafter]
    exact regRead_rax ..
  case others =>
    intro r hr hne
    obtain ⟨uc', hwrite⟩ := LawfulUnicorn.regWrite_ok v.uc (r := .RAX) trivial (BitVec.ofInt 64 ret)
    rw [hafter, hwrite]
    exact LawfulUnicorn.regRead_regWrite_of_ne (r := .RAX) trivial hr hne.symm hwrite

/-- Whatever is done with a `Vcpu`, a syscall that returns to the guest changes
nothing the guest can see but `rax`. -/
theorem syscalls_transparent (b : Build) (trace : Option TraceSink) (uc : U) (ops : List (Op U))
    (e : Event U) (he : e ∈ eventsAll b ops (Vcpu.new (stage1 b trace) uc)) (ret : ℤ)
    (hout : e.outcome = .ok (.ret ret)) : Transparent e ret := by
  obtain ⟨v, rfl, hhandlers⟩ := mem_eventsAll he
  have hd : IsStage1 b v.dispatch := hhandlers.trans (stage1_isStage1 b trace)
  exact event_transparent hd hout

end Transparent

def twoRunsWrite : Event FlatEngine :=
  (eventsAll .debug twoRuns twoRunsFresh).get ⟨0, by decide +kernel⟩

theorem twoRunsWrite_transparent : Transparent twoRunsWrite 2 :=
  syscalls_transparent .debug (some TraceSink.new) FlatEngine.new twoRuns twoRunsWrite
    (List.get_mem ..) 2 (by decide +kernel)

end WinVpwn.Cpu

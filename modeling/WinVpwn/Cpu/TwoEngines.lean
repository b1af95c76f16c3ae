import WinVpwn.Cpu.Transparent
import WinVpwn.Rust.Relational
import WinVpwn.Syscall.Backends

/-!
# Two engines under one guest

The crate sees an engine through its address space and its named registers. Two
engines that look the same and deliver the same syscalls are answered the same,
and a run on one reports what a run on the other does.
-/

namespace WinVpwn.Cpu
open Rust Lib WinVpwn.Memory WinVpwn.Elf WinVpwn.Syscall WinVpwn.Vkernel WinVpwn.Trace

/-- The documented behaviour of the calls on guest memory and of `reg_write`: registers
are not theirs, or one is, and neither stops the engine. -/
class FramedUnicorn (U : Type) extends LawfulUnicorn U where
  regRead_memMap (uc : U) (base size : U64) (prot : Prot) (r : RegisterX86) :
    regRead (memMap base size prot uc).2 r = regRead uc r
  regRead_memWrite (uc : U) (addr : U64) (data : List U8) (r : RegisterX86) :
    regRead (memWrite addr data uc).2 r = regRead uc r
  stop_memMap (uc : U) (base size : U64) (prot : Prot) :
    stopRequested (memMap base size prot uc).2 = stopRequested uc
  stop_memWrite (uc : U) (addr : U64) (data : List U8) :
    stopRequested (memWrite addr data uc).2 = stopRequested uc
  stop_regWrite (uc : U) {r : RegisterX86} (hr : r.Named) (val : U64) :
    stopRequested (regWrite r val uc).2 = stopRequested uc

instance : FramedUnicorn FlatEngine where
  stop_memMap e base size prot := by
    show FlatEngine.stopped (Unicorn.memMap base size prot e).2 = e.stopped
    simp only [Unicorn.memMap]
    split_ifs <;> rfl
  stop_memWrite e addr data := by
    show FlatEngine.stopped (Unicorn.memWrite addr data e).2 = e.stopped
    simp only [Unicorn.memWrite]
    split_ifs <;> rfl
  stop_regWrite e r hr val := rfl
  regRead_memMap e base size prot r := by
    show Unicorn.regRead (Unicorn.memMap base size prot e).2 r = Unicorn.regRead e r
    simp only [Unicorn.memMap]
    split_ifs <;> rfl
  regRead_memWrite e addr data r := by
    show Unicorn.regRead (Unicorn.memWrite addr data e).2 r = Unicorn.regRead e r
    simp only [Unicorn.memWrite]
    split_ifs <;> rfl

/-! ### Two engines that look the same -/

/-- The same address space and the same named registers, as the crate reads them, and
both engines told to stop or neither. -/
structure SameView {U V : Type} [LawfulUnicorn U] [LawfulUnicorn V] (uc : U) (vc : V) : Prop where
  space : LawfulUnicorn.space uc = LawfulUnicorn.space vc
  regs : ∀ r : RegisterX86, r.Named → regReadOrZero uc r = regReadOrZero vc r
  stop : LawfulUnicorn.stopRequested uc = LawfulUnicorn.stopRequested vc

section View
variable {U V : Type} [FramedUnicorn U] [FramedUnicorn V] {uc : U} {vc : V}

theorem SameView.hookRegs (h : SameView uc vc) : Vcpu.hookRegs uc = Vcpu.hookRegs vc := by
  unfold Vcpu.hookRegs
  rw [h.regs .RAX trivial, h.regs .RDI trivial, h.regs .RSI trivial, h.regs .RDX trivial,
    h.regs .R10 trivial, h.regs .R8 trivial, h.regs .R9 trivial, h.regs .RIP trivial]

theorem regReadOrZero_regWrite (uc : U) {r s : RegisterX86} (hr : r.Named) (hs : s.Named)
    (val : U64) : regReadOrZero (Unicorn.regWrite r val uc).2 s =
      if s = r then val else regReadOrZero uc s := by
  obtain ⟨uc', hwrite⟩ := LawfulUnicorn.regWrite_ok uc hr val
  rw [hwrite]
  unfold regReadOrZero
  split_ifs with hsame
  · subst hsame
    rw [LawfulUnicorn.regRead_regWrite hr hwrite]
  · rw [LawfulUnicorn.regRead_regWrite_of_ne hr hs (Ne.symm hsame) hwrite]

theorem SameView.regWrite (h : SameView uc vc) {r : RegisterX86} (hr : r.Named) (val : U64) :
    SameView (Unicorn.regWrite r val uc).2 (Unicorn.regWrite r val vc).2 := by
  constructor
  · rw [LawfulUnicorn.space_regWrite, LawfulUnicorn.space_regWrite]
    exact h.space
  · intro s hs
    rw [regReadOrZero_regWrite uc hr hs, regReadOrZero_regWrite vc hr hs, h.regs s hs]
  · rw [FramedUnicorn.stop_regWrite uc hr, FramedUnicorn.stop_regWrite vc hr, h.stop]

/- A buffer is read alike, whatever the engines call what went wrong. -/
theorem SameView.read (h : SameView uc vc) (b : Build) (addr : U64) (n : ℕ) :
    Outcome.Agree (fun _ _ => True) (GuestMemory.read b (⟨uc⟩ : UnicornGuest U) addr n)
      (GuestMemory.read b (⟨vc⟩ : UnicornGuest V) addr n) := by
  by_cases hn : n ≤ isizeMax
  · have hbytes : memBytes uc addr n = memBytes vc addr n := by
      unfold memBytes
      rw [h.space]
    rcases guest_read_cases b uc addr hn with ⟨hcov, hrun⟩ | ⟨hbad, e, hrun⟩ <;>
      rcases guest_read_cases b vc addr hn with ⟨hcov', hrun'⟩ | ⟨hbad', e', hrun'⟩
    · rw [hrun, hrun', hbytes]
      exact .ok _
    · exact absurd (h.space ▸ hcov) hbad'
    · exact absurd (h.space ▸ hcov') hbad
    · rw [hrun, hrun']
      exact .err trivial
  · have hfault : ∀ {W : Type} [LawfulUnicorn W] (wc : W),
        GuestMemory.read b (⟨wc⟩ : UnicornGuest W) addr n = .fault .capacity := by
      intro W _ wc
      show UnicornGuest.read b ⟨wc⟩ addr n = _
      unfold UnicornGuest.read zeroed reserve
      rw [if_neg hn]
      rfl
    rw [hfault, hfault]
    exact .fault _

theorem SameView.handle (h : SameView uc vc) {b : Build} {d : Dispatch (UnicornGuest U)}
    {d' : Dispatch (UnicornGuest V)} (hd : IsStage1 b d) (hd' : IsStage1 b d') (r : SyscallRegs) :
    (d.handle r (Vcpu.hookContext uc)).1 = (d'.handle r (Vcpu.hookContext vc)).1 ∧
      (d.handle r (Vcpu.hookContext uc)).2.io = (d'.handle r (Vcpu.hookContext vc)).2.io := by
  by_cases he : r.IsExit
  · rw [handle_exit b hd r he, handle_exit b hd' r he]
    exact ⟨rfl, rfl⟩
  by_cases hw : r.IsStreamWrite
  · rw [handle_write b hd r hw, handle_write b hd' r hw]
    have hread := h.read b r.arg1 r.count
    rw [show (⟨uc⟩ : UnicornGuest U) = (Vcpu.hookContext uc).mem from rfl,
      show (⟨vc⟩ : UnicornGuest V) = (Vcpu.hookContext vc).mem from rfl] at hread
    generalize GuestMemory.read b (Vcpu.hookContext uc).mem r.arg1 r.count = x at *
    generalize GuestMemory.read b (Vcpu.hookContext vc).mem r.arg1 r.count = y at *
    cases hread with
    | ok bs => exact ⟨rfl, rfl⟩
    | err _ => exact ⟨rfl, rfl⟩
    | fault p => exact ⟨rfl, rfl⟩
  · rw [handle_refused b hd r hw he, handle_refused b hd' r hw he]
    exact ⟨rfl, rfl⟩

end View

/-! ### A run on each -/

/-- Everything but the engine, the bookkeeping and the handlers' type is the same. -/
structure Alike {U V : Type} [Unicorn U] [Unicorn V] (b : Build) (v : Vcpu U) (w : Vcpu V) :
    Prop where
  left : IsStage1 b v.dispatch
  right : IsStage1 b w.dispatch
  trace : v.dispatch.trace = w.dispatch.trace
  shared : v.shared = w.shared

/-- The same syscalls on both engines, as long as they look the same at each and are
left looking the same by it. -/
def Execution.Sim {U V : Type} [LawfulUnicorn U] [LawfulUnicorn V] :
    Execution U → Execution V → Prop
  | .done uc status, .done vc status' => status = status' ∧ SameView uc vc
  | .syscall uc resume, .syscall vc resume' =>
    SameView uc vc ∧ ∀ uc' vc', SameView uc' vc' → (resume uc').Sim (resume' vc')
  | _, _ => False

section Alike
variable {U V : Type} [FramedUnicorn U] [FramedUnicorn V] {b : Build} {v : Vcpu U} {w : Vcpu V}

theorem Alike.set_engines (h : Alike b v w) (uc : U) (vc : V) :
    Alike b { v with uc := uc } { w with uc := vc } :=
  ⟨h.left, h.right, h.trace, h.shared⟩

theorem Alike.outcome (h : Alike b v w) (hview : SameView v.uc w.uc) :
    v.event.outcome = w.event.outcome := by
  rw [event_outcome, event_outcome, hview.hookRegs]
  exact (hview.handle h.left h.right _).1

theorem Alike.dispatched (h : Alike b v w) (hview : SameView v.uc w.uc) :
    Alike b v.dispatched w.dispatched := by
  obtain ⟨hval, hio⟩ := hview.handle h.left h.right (Vcpu.hookRegs w.uc)
  have hregs := hview.hookRegs
  constructor
  case left => exact (Dispatch.dispatch_handlers ..).trans h.left
  case right => exact (Dispatch.dispatch_handlers ..).trans h.right
  case trace =>
    show (Dispatch.dispatch _ _).2.1.trace = (Dispatch.dispatch _ _).2.1.trace
    rw [Dispatch.dispatch_trace, Dispatch.dispatch_trace, hregs, hval, h.trace,
      nameOf_stage1 b h.left, nameOf_stage1 b h.right]
  case shared =>
    have hcaptured : Vcpu.capturedBy (Dispatch.dispatch (Vcpu.hookRegs v.uc)
        (v.dispatch, Vcpu.hookContext v.uc)) =
        Vcpu.capturedBy (Dispatch.dispatch (Vcpu.hookRegs w.uc)
          (w.dispatch, Vcpu.hookContext w.uc)) := by
      unfold Vcpu.capturedBy
      rw [Dispatch.dispatch_fst, Dispatch.dispatch_fst, Dispatch.dispatch_ctx,
        Dispatch.dispatch_ctx, hregs, hval, hio]
    exact congrArg₂ (fun (shared : SharedState) bytes =>
      { shared with output := shared.output ++ bytes }) h.shared hcaptured

theorem Alike.answer (h : Alike b v w) (result : Outcome DispatchError SyscallOutcome) :
    Alike b (v.answer result) (w.answer result) := by
  cases result with
  | ok o =>
    cases o with
    | ret ret => exact ⟨h.left, h.right, h.trace, h.shared⟩
    | exit reason =>
      exact ⟨h.left, h.right, h.trace, congrArg (fun shared : SharedState =>
        { shared with exitReason := some reason }) h.shared⟩
  | err e =>
    exact ⟨h.left, h.right, h.trace, congrArg (fun shared : SharedState =>
      { shared with engineError := some e.toString }) h.shared⟩
  | fault p => exact h

theorem answer_view (hview : SameView v.uc w.uc)
    (result : Outcome DispatchError SyscallOutcome) :
    SameView (v.answer result).uc (w.answer result).uc ∨
      LawfulUnicorn.stopRequested (v.answer result).uc = true ∧
        LawfulUnicorn.stopRequested (w.answer result).uc = true := by
  cases result with
  | ok o =>
    cases o with
    | ret ret => exact .inl (hview.regWrite (r := .RAX) trivial _)
    | exit reason =>
      exact .inr ⟨LawfulUnicorn.stopRequested_emuStop _, LawfulUnicorn.stopRequested_emuStop _⟩
  | err e =>
    exact .inr ⟨LawfulUnicorn.stopRequested_emuStop _, LawfulUnicorn.stopRequested_emuStop _⟩
  | fault p => exact .inl hview

theorem hook_alike (h : Alike b v w) (hview : SameView v.uc w.uc) :
    (Vcpu.syscallHook v).1 = (Vcpu.syscallHook w).1 ∧
      Alike b (Vcpu.syscallHook v).2 (Vcpu.syscallHook w).2 ∧
      (SameView (Vcpu.syscallHook v).2.uc (Vcpu.syscallHook w).2.uc ∨
        LawfulUnicorn.stopRequested (Vcpu.syscallHook v).2.uc = true ∧
          LawfulUnicorn.stopRequested (Vcpu.syscallHook w).2.uc = true) := by
  have hout := h.outcome hview
  have hsame : SameView v.dispatched.uc w.dispatched.uc := by
    rw [dispatched_uc h.left, dispatched_uc h.right]
    exact hview
  rw [syscallHook_handled v, syscallHook_handled w, hout]
  exact ⟨rfl, (h.dispatched hview).answer _, answer_view hsame _⟩

/- What two runs of the same syscalls leave behind. Where the engines went on to an
error of their own they still look the same. -/
theorem emulate_alike (exec : Execution U) (exec' : Execution V) (hsim : exec.Sim exec')
    (hobeys : exec.Obeys) (hobeys' : exec'.Obeys) (h : Alike b v w) :
    (Vcpu.emulate exec v).1 = (Vcpu.emulate exec' w).1 ∧
      Alike b (Vcpu.emulate exec v).2 (Vcpu.emulate exec' w).2 ∧
      ∀ msg, (Vcpu.emulate exec v).1 = .ok (.error msg) →
        SameView (Vcpu.emulate exec v).2.uc (Vcpu.emulate exec' w).2.uc := by
  induction exec generalizing exec' v w with
  | done uc status =>
    cases exec' with
    | done vc status' =>
      obtain ⟨rfl, hview⟩ := hsim
      exact ⟨rfl, h.set_engines uc vc, fun _ _ => hview⟩
    | syscall vc resume' => exact hsim.elim
  | syscall uc resume ih =>
    cases exec' with
    | done vc status' => exact hsim.elim
    | syscall vc resume' =>
      obtain ⟨hview, hnext⟩ := hsim
      obtain ⟨hres, halike, hafter⟩ := hook_alike (h.set_engines uc vc) hview
      rw [Vcpu.emulate_syscall, Vcpu.emulate_syscall]
      generalize Vcpu.syscallHook { v with uc := uc } = left at *
      generalize Vcpu.syscallHook { w with uc := vc } = right at *
      obtain ⟨o, v₁⟩ := left
      obtain ⟨o', w₁⟩ := right
      obtain rfl : o = o' := hres
      cases o with
      | ok _ =>
        rcases hafter with hview' | ⟨hstop, hstop'⟩
        · exact ih v₁.uc (resume' w₁.uc) (hnext _ _ hview') (hobeys v₁.uc).1 (hobeys' w₁.uc).1
            halike
        · -- both engines return at once
          obtain ⟨uc', hdone⟩ := (hobeys v₁.uc).2 hstop
          obtain ⟨vc', hdone'⟩ := (hobeys' w₁.uc).2 hstop'
          dsimp only
          rw [hdone, hdone']
          exact ⟨rfl, halike.set_engines uc' vc', fun _ hmsg => by cases hmsg⟩
      | err e => exact ⟨rfl, halike, fun _ hmsg => by cases hmsg⟩
      | fault p => exact ⟨rfl, halike, fun _ hmsg => by cases hmsg⟩

/- The result of a run: the slots are shared, and the only register it reads is `rip`. -/
theorem run_alike (timeoutMs : U64) {emuStart : EmuCall → U → Execution U}
    {emuStart' : EmuCall → V → Execution V} (h : Alike b v w) (hview : SameView v.uc w.uc)
    (hsim : ∀ call, (emuStart call v.uc).Sim (emuStart' call w.uc))
    (hobeys : ∀ call, (emuStart call v.uc).Obeys)
    (hobeys' : ∀ call, (emuStart' call w.uc).Obeys) :
    (Vcpu.run timeoutMs emuStart v).1 = (Vcpu.run timeoutMs emuStart' w).1 ∧
      Alike b (Vcpu.run timeoutMs emuStart v).2 (Vcpu.run timeoutMs emuStart' w).2 := by
  rw [Vcpu.run_eq, Vcpu.run_eq]
  have hcall : w.execution timeoutMs emuStart' =
      emuStart' ⟨regReadOrZero v.uc .RIP, 0xffffffffffffffff, timeoutMs, 0⟩ w.uc := by
    unfold Vcpu.execution
    rw [hview.regs .RIP trivial]
  obtain ⟨hres, halike, herr⟩ := emulate_alike (v.execution timeoutMs emuStart)
    (w.execution timeoutMs emuStart') (hcall ▸ hsim _) (hobeys _) (hobeys' _) h
  generalize Vcpu.emulate (v.execution timeoutMs emuStart) v = left at *
  generalize Vcpu.emulate (w.execution timeoutMs emuStart') w = right at *
  obtain ⟨o, v₁⟩ := left
  obtain ⟨o', w₁⟩ := right
  obtain rfl : o = o' := hres
  cases o with
  | ok status =>
    refine ⟨?_, halike⟩
    show v₁.verdict status = w₁.verdict status
    cases status with
    | ok _ =>
      unfold Vcpu.verdict
      rw [halike.shared]
    | error msg =>
      have hrip : regReadOrZero v₁.uc .RIP = regReadOrZero w₁.uc .RIP :=
        (herr msg rfl).regs .RIP trivial
      unfold Vcpu.verdict
      rw [hrip]
  | err e => exact ⟨rfl, halike⟩
  | fault p => exact ⟨rfl, halike⟩

end Alike

/-! ### Preparing each -/

/-- The same error up to the words of the engine. -/
def VcpuError.Matches : VcpuError → VcpuError → Prop
  | .init _, .init _ => True
  | .map base _, .map base' _ => base = base'
  | .regOp _, .regOp _ => True
  | e, e' => e = e'

theorem VcpuError.Matches.refl (e : VcpuError) : e.Matches e := by
  cases e with
  | init msg => trivial
  | map base reason => exact rfl
  | regOp msg => trivial
  | exec msg => exact rfl
  | notLoaded => exact rfl

theorem matches_map (base : U64) (s s' : String) :
    (VcpuError.map base s).Matches (VcpuError.map base s') := rfl

theorem matches_regOp (s s' : String) : (VcpuError.regOp s).Matches (VcpuError.regOp s') := trivial

section Twin
variable {U V : Type} [FramedUnicorn U] [FramedUnicorn V] {b : Build}

/-- Engine calls that go through together and keep the view. -/
def EngineTied {α : Type} (call : U → Except String α × U) (call' : V → Except String α × V) :
    Prop :=
  ∀ uc vc, SameView uc vc → SameView (call uc).2 (call' vc).2 ∧
    ((∃ a, (call uc).1 = .ok a ∧ (call' vc).1 = .ok a) ∨
      ∃ e e', (call uc).1 = .error e ∧ (call' vc).1 = .error e')

theorem SameView.of_frame {uc : U} {vc : V} (h : SameView uc vc) (uc' : U) (vc' : V)
    (hspace : LawfulUnicorn.space uc' = LawfulUnicorn.space vc')
    (hregs : ∀ r, Unicorn.regRead uc' r = Unicorn.regRead uc r)
    (hregs' : ∀ r, Unicorn.regRead vc' r = Unicorn.regRead vc r)
    (hstop : LawfulUnicorn.stopRequested uc' = LawfulUnicorn.stopRequested uc)
    (hstop' : LawfulUnicorn.stopRequested vc' = LawfulUnicorn.stopRequested vc) :
    SameView uc' vc' := by
  refine ⟨hspace, fun r hr => ?_, by rw [hstop, hstop', h.stop]⟩
  have hsame := h.regs r hr
  unfold regReadOrZero at hsame ⊢
  rw [hregs, hregs', hsame]

theorem engineTied_memMap (base size : U64) (prot : Prot) :
    EngineTied (Unicorn.memMap (U := U) base size prot) (Unicorn.memMap (U := V) base size prot) := by
  intro uc vc h
  have hframe := fun hspace => h.of_frame (Unicorn.memMap base size prot uc).2
    (Unicorn.memMap base size prot vc).2 hspace
    (FramedUnicorn.regRead_memMap uc base size prot) (FramedUnicorn.regRead_memMap vc base size prot)
    (FramedUnicorn.stop_memMap uc base size prot) (FramedUnicorn.stop_memMap vc base size prot)
  rcases memMap_cases uc base size prot with ⟨hfree, hok, hspace⟩ | ⟨hbad, ⟨e, he⟩, hspace⟩ <;>
    rcases memMap_cases vc base size prot with ⟨hfree', hok', hspace'⟩ | ⟨hbad', ⟨e', he'⟩, hspace'⟩
  · refine ⟨hframe ?_, .inl ⟨(), hok, hok'⟩⟩
    rw [hspace, hspace', h.space]
  · exact absurd (h.space ▸ hfree) hbad'
  · exact absurd (h.space ▸ hfree') hbad
  · refine ⟨hframe ?_, .inr ⟨e, e', he, he'⟩⟩
    rw [hspace, hspace', h.space]

theorem engineTied_memWrite (addr : U64) (data : List U8) :
    EngineTied (Unicorn.memWrite (U := U) addr data) (Unicorn.memWrite (U := V) addr data) := by
  intro uc vc h
  have hframe := fun hspace => h.of_frame (Unicorn.memWrite addr data uc).2
    (Unicorn.memWrite addr data vc).2 hspace
    (FramedUnicorn.regRead_memWrite uc addr data) (FramedUnicorn.regRead_memWrite vc addr data)
    (FramedUnicorn.stop_memWrite uc addr data) (FramedUnicorn.stop_memWrite vc addr data)
  rcases memWrite_cases uc addr data with ⟨hcov, hok, hspace⟩ | ⟨hbad, ⟨e, he⟩, hspace⟩ <;>
    rcases memWrite_cases vc addr data with ⟨hcov', hok', hspace'⟩ | ⟨hbad', ⟨e', he'⟩, hspace'⟩
  · refine ⟨hframe ?_, .inl ⟨(), hok, hok'⟩⟩
    rw [hspace, hspace', h.space]
  · exact absurd (h.space ▸ hcov) hbad'
  · exact absurd (h.space ▸ hcov') hbad
  · refine ⟨hframe ?_, .inr ⟨e, e', he, he'⟩⟩
    rw [hspace, hspace', h.space]

theorem engineTied_regWrite {r : RegisterX86} (hr : r.Named) (val : U64) :
    EngineTied (Unicorn.regWrite (U := U) r val) (Unicorn.regWrite (U := V) r val) := by
  intro uc vc h
  obtain ⟨uc', hrun⟩ := LawfulUnicorn.regWrite_ok uc hr val
  obtain ⟨vc', hrun'⟩ := LawfulUnicorn.regWrite_ok vc hr val
  exact ⟨h.regWrite hr val, .inl ⟨(), by rw [hrun], by rw [hrun']⟩⟩

/-- Two `Vcpu`s with the same past over engines that look the same. -/
structure Twin (b : Build) (v : Vcpu U) (w : Vcpu V) : Prop where
  alike : Alike b v w
  view : SameView v.uc w.uc
  map : v.map = w.map
  regions : v.regions = w.regions

theorem tied_onEngine {α : Type} {f : String → VcpuError} (hf : ∀ s s', (f s).Matches (f s'))
    {call : U → Except String α × U} {call' : V → Except String α × V}
    (hcall : EngineTied call call') :
    Act.Tied (Twin b) VcpuError.Matches (Vcpu.onEngine f call) (Vcpu.onEngine f call') := by
  intro v w h
  obtain ⟨hview, hres⟩ := hcall v.uc w.uc h.view
  unfold Vcpu.onEngine Act.zoom engineCall
  generalize call v.uc = left at *
  generalize call' w.uc = right at *
  obtain ⟨res, uc⟩ := left
  obtain ⟨res', vc⟩ := right
  have htwin : Twin b { v with uc := uc } { w with uc := vc } :=
    ⟨h.alike.set_engines uc vc, hview, h.map, h.regions⟩
  rcases hres with ⟨a, rfl, rfl⟩ | ⟨e, e', rfl, rfl⟩
  · exact ⟨.ok a, htwin⟩
  · exact ⟨.err (hf e e'), htwin⟩

theorem tied_claimRange (base size : U64) (prot : U32) :
    Act.Tied (Twin b) VcpuError.Matches
      (Vcpu.claimRange b base size prot : Act (Vcpu U) VcpuError Unit)
      (Vcpu.claimRange b base size prot : Act (Vcpu V) VcpuError Unit) := by
  intro v w h
  unfold Vcpu.claimRange Act.zoom Act.mapErr
  dsimp only
  rw [h.map]
  refine ⟨Outcome.Agree.refl VcpuError.Matches.refl _, ?_⟩
  exact ⟨⟨h.alike.left, h.alike.right, h.alike.trace, h.alike.shared⟩, h.view, rfl, h.regions⟩

theorem tied_mapRange (base size : U64) (flags : U32) (prot : Prot) :
    Act.Tied (Twin b) VcpuError.Matches
      (Vcpu.mapRange b base size flags prot : Act (Vcpu U) VcpuError Unit)
      (Vcpu.mapRange b base size flags prot : Act (Vcpu V) VcpuError Unit) :=
  Act.tied_bind (tied_claimRange base size flags) fun _ =>
    tied_onEngine (matches_map base) (engineTied_memMap base size prot)

theorem tied_pushRegion (region : U64 × U64 × U32) :
    Act.Tied (Twin b) VcpuError.Matches
      (Act.modify fun v => { v with regions := v.regions ++ [region] } :
        Act (Vcpu U) VcpuError Unit)
      (Act.modify fun v => { v with regions := v.regions ++ [region] } :
        Act (Vcpu V) VcpuError Unit) := by
  apply Act.tied_modify
  intro v w h
  exact ⟨⟨h.alike.left, h.alike.right, h.alike.trace, h.alike.shared⟩, h.view, h.map,
    congrArg (· ++ [region]) h.regions⟩

theorem tied_lift_self {α : Type} (x : Outcome VcpuError α) :
    Act.Tied (Twin b) VcpuError.Matches (Act.lift x : Act (Vcpu U) VcpuError α)
      (Act.lift x : Act (Vcpu V) VcpuError α) :=
  Act.tied_lift (Outcome.Agree.refl VcpuError.Matches.refl x)

theorem tied_mapMemory (base size : U64) (prot : Prot) :
    Act.Tied (Twin b) VcpuError.Matches
      (Vcpu.mapMemory b base size prot : Act (Vcpu U) VcpuError Unit)
      (Vcpu.mapMemory b base size prot : Act (Vcpu V) VcpuError Unit) :=
  Act.tied_bind (tied_mapRange base size 0 prot) fun _ => tied_pushRegion _

theorem tied_mapSegment (seg : Segment) :
    Act.Tied (Twin b) VcpuError.Matches
      (Vcpu.mapSegment b seg : Act (Vcpu U) VcpuError Unit)
      (Vcpu.mapSegment b seg : Act (Vcpu V) VcpuError Unit) := by
  refine Act.tied_bind (tied_lift_self _) fun range => ?_
  refine Act.tied_bind (tied_mapRange range.1 range.2 _ _) fun _ => ?_
  refine Act.tied_bind (tied_lift_self _) fun offset => ?_
  refine Act.tied_bind (tied_lift_self _) fun data => ?_
  refine Act.tied_bind (tied_lift_self _) fun addr => ?_
  exact Act.tied_bind (tied_onEngine (matches_map _) (engineTied_memWrite addr data))
    fun _ => tied_pushRegion _

theorem tied_setupInitialState (entry stackTop : U64) :
    Act.Tied (Twin b) VcpuError.Matches
      (Vcpu.setupInitialState b entry stackTop : Act (Vcpu U) VcpuError Unit)
      (Vcpu.setupInitialState b entry stackTop : Act (Vcpu V) VcpuError Unit) := by
  refine Act.tied_bind (tied_lift_self _) fun argcAddr => ?_
  refine Act.tied_bind (tied_onEngine matches_regOp (engineTied_memWrite _ _)) fun _ => ?_
  refine Act.tied_bind (tied_onEngine matches_regOp
    (engineTied_regWrite (r := .RSP) trivial _)) fun _ => ?_
  exact tied_onEngine matches_regOp (engineTied_regWrite (r := .RIP) trivial entry)

theorem tied_prepare (elf : LoadedElf) :
    Act.Tied (Twin b) VcpuError.Matches (Vcpu.prepare b elf : Act (Vcpu U) VcpuError Unit)
      (Vcpu.prepare b elf : Act (Vcpu V) VcpuError Unit) := by
  refine Act.tied_bind (Act.tied_forM fun seg _ => tied_mapSegment seg) fun _ => ?_
  refine Act.tied_bind (tied_mapMemory _ _ _) fun _ => ?_
  exact tied_setupInitialState _ _

end Twin
end WinVpwn.Cpu

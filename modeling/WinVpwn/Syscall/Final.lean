import WinVpwn.Syscall.DispatchImpl

/-!
# After the exit

Nothing between a call and its handler looks at the process state, so a process
that has ended stays as it is only as long as nobody asks it for more.
-/

namespace WinVpwn.Syscall
open Rust WinVpwn.Vkernel WinVpwn.Trace

section Final
variable {M : Type}

/-- If the process has ended in `c`, then `c'` is the same end with the same output. -/
def Stays (c c' : Context M) : Prop :=
  ∀ code, c.process = .exited code →
    c'.process = .exited code ∧ ∀ fd, c'.io.get fd = c.io.get fd

theorem Stays.refl (c : Context M) : Stays c c := fun _ h => ⟨h, fun _ => rfl⟩

theorem Stays.trans {c c' c'' : Context M} (h : Stays c c') (h' : Stays c' c'') : Stays c c'' := by
  intro code hc
  obtain ⟨hc', hio⟩ := h code hc
  obtain ⟨hc'', hio'⟩ := h' code hc'
  exact ⟨hc'', fun fd => (hio' fd).trans (hio fd)⟩

variable [GuestMemory M]

/-- If the process has ended, the call is no exit with another code and no write of
a byte. -/
def Quiet (b : Build) (c : Context M) (r : SyscallRegs) : Prop :=
  ∀ code, c.process = .exited code →
    (r.IsExit → r.exitCode = code) ∧
    (r.IsStreamWrite → ∀ bs, GuestMemory.read b c.mem r.arg1 r.count = .ok bs → bs = [])

theorem quiet_of_unread {b : Build} {c : Context M} {r : SyscallRegs} (he : ¬r.IsExit)
    (hread : ∀ bs, GuestMemory.read b c.mem r.arg1 r.count ≠ .ok bs) : Quiet b c r := by
  intro code _
  exact ⟨fun hexit => absurd hexit he, fun _ bs hbs => absurd hbs (hread bs)⟩

theorem stays_write_iff {b : Build} {c : Context M} {r : SyscallRegs} (hw : r.IsStreamWrite)
    (he : ¬r.IsExit) {bs : List U8}
    (hread : GuestMemory.read b c.mem r.arg1 r.count = .ok bs) :
    Stays c { c with io := c.io.write r.fd bs } ↔ Quiet b c r := by
  constructor
  · intro h code hc
    refine ⟨fun hexit => absurd hexit he, fun _ bs' hbs' => ?_⟩
    rw [hread, Outcome.ok.injEq] at hbs'
    have hio := (h code hc).2 r.fd
    rw [OutputCapture.get_write, if_pos rfl, List.append_right_eq_self] at hio
    exact hbs' ▸ hio
  · intro h code hc
    have hnil := (h code hc).2 hw bs hread
    refine ⟨hc, fun fd => ?_⟩
    rw [hnil, OutputCapture.get_write, List.append_nil]
    split_ifs with hfd
    · rw [hfd]
    · rfl

theorem stays_handle_iff (b : Build) {d : Dispatch M} (hd : IsStage1 b d) (c : Context M)
    (r : SyscallRegs) : Stays c (d.handle r c).2 ↔ Quiet b c r := by
  by_cases he : r.IsExit
  · have hw := not_streamWrite_of_exit r he
    rw [handle_exit b hd r he]
    constructor
    · intro h code hc
      have hexit := (h code hc).1
      simp only [ProcessState.exited.injEq] at hexit
      exact ⟨fun _ => hexit, fun hwrite => absurd hwrite hw⟩
    · intro h code hc
      exact ⟨congrArg ProcessState.exited ((h code hc).1 he), fun _ => rfl⟩
  by_cases hw : r.IsStreamWrite
  · rw [handle_write b hd r hw]
    cases hread : GuestMemory.read b c.mem r.arg1 r.count with
    | ok bs => exact stays_write_iff hw he hread
    | err e =>
      apply iff_of_true (Stays.refl c) (quiet_of_unread he _)
      intro bs
      rw [hread]
      exact nofun
    | fault p =>
      apply iff_of_true (Stays.refl c) (quiet_of_unread he _)
      intro bs
      rw [hread]
      exact nofun
  · rw [handle_refused b hd r hw he]
    exact iff_of_true (Stays.refl c)
      fun code _ => ⟨fun hexit => absurd hexit he, fun hwrite => absurd hwrite hw⟩

def stateAfter (b : Build) (trace : Option TraceSink) (c : Context M) (calls : List SyscallRegs) :
    Dispatch M × Context M := (Act.runAll Dispatch.dispatch calls (stage1 b trace, c)).2

theorem stateAfter_stage1 (b : Build) (trace : Option TraceSink) (c : Context M)
    (calls : List SyscallRegs) : IsStage1 b (stateAfter b trace c calls).1 := by
  unfold stateAfter
  induction calls using List.reverseRec with
  | nil => exact stage1_isStage1 b trace
  | append_singleton pre r ih =>
    rw [Act.runAll_snoc]
    exact (Dispatch.dispatch_handlers _ _ r).trans ih

/-- Once the process has ended, the rest of the calls leave it and its output alone. -/
def ExitIsFinal (b : Build) (trace : Option TraceSink) (c : Context M) (calls : List SyscallRegs) :
    Prop :=
  ∀ pre later, pre <+: later → later <+: calls →
    Stays (stateAfter b trace c pre).2 (stateAfter b trace c later).2

/-- An exit is final in a run exactly when every call after it is quiet. -/
theorem exitIsFinal_iff (b : Build) (trace : Option TraceSink) (c : Context M)
    (calls : List SyscallRegs) :
    ExitIsFinal b trace c calls ↔
      ∀ pre r, pre ++ [r] <+: calls → Quiet b (stateAfter b trace c pre).2 r := by
  apply (Act.runAll_between_iff (f := Dispatch.dispatch) (s := (stage1 b trace, c))
    (R := fun s t : Dispatch M × Context M => Stays s.2 t.2) (fun s => Stays.refl s.2)
    fun s t u => Stays.trans).trans
  refine forall_congr' fun pre => forall_congr' fun r => imp_congr_right fun _ => ?_
  rw [Dispatch.dispatch_ctx]
  exact stays_handle_iff b (stateAfter_stage1 b trace c pre) _ r

theorem second_exit_overwrites :
    ¬ExitIsFinal .release none (⟨.running, InMemGuest.new, OutputCapture.default⟩ : Context InMemGuest)
      [SyscallRegs.fromRegs 60 #v[0, 0, 0, 0, 0, 0] 0x401000,
        SyscallRegs.fromRegs 60 #v[7, 0, 0, 0, 0, 0] 0x401010] := by
  intro h
  have hstays := (h [SyscallRegs.fromRegs 60 #v[0, 0, 0, 0, 0, 0] 0x401000] _
    (List.prefix_append _ [_]) (List.prefix_refl _) 0 rfl).1
  revert hstays
  decide +kernel

end Final
end WinVpwn.Syscall

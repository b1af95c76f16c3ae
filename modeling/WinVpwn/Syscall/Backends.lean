import WinVpwn.Vkernel.Mem
import WinVpwn.Syscall.DispatchImpl
import WinVpwn.Vkernel.FlatGuest

/-!
# The two memory backends behind the handlers

The unit tests run the handlers on `InMemGuest`, the emulator on `UnicornGuest`.
Over the same memory the two cannot be told apart: a chunked walk over regions
and one engine call read the same bytes or both fail.
-/

namespace WinVpwn.Syscall
open Rust Lib WinVpwn.Cpu WinVpwn.Vkernel WinVpwn.Trace

section Backends
variable {U : Type} [LawfulUnicorn U] (b : Build)

/-- The same addresses are mapped to the same bytes. -/
def SameMemory (m : InMemGuest) (g : UnicornGuest U) : Prop :=
  m.contents = (LawfulUnicorn.space g.uc).contents

theorem read_agree {m : InMemGuest} {g : UnicornGuest U} (hm : m.Wf) (hmem : SameMemory m g)
    (addr : U64) {n : ℕ} (hn : n ≤ isizeMax) :
    (∃ bs, GuestMemory.read b m addr n = .ok bs ∧ GuestMemory.read b g addr n = .ok bs) ∨
    ((∃ e, GuestMemory.read b m addr n = .err e) ∧ ∃ e, GuestMemory.read b g addr n = .err e) := by
  have hcovers := (LawfulUnicorn.space g.uc).covers_contents addr.toNat n
  rw [← show m.contents = _ from hmem] at hcovers
  rcases InMemGuest.read_exact b hm addr hn with ⟨bs, hrun, hbs, hheld⟩ | ⟨gap, hrun, hgap⟩
  · rcases guest_read_cases b g.uc addr hn with ⟨hcov, hrun'⟩ | ⟨hbad, -⟩
    · have hheld' := AddressSpace.holds_contents hcov
      rw [← show m.contents = _ from hmem] at hheld'
      have hlen : bs.length = (memBytes g.uc addr n).length := by rw [hbs, length_memBytes]
      refine Or.inl ⟨bs, hrun, ?_⟩
      rw [hheld.unique hheld' hlen]
      exact hrun'
    · exact absurd (hcovers.mp (hbs ▸ hheld.covers)) hbad
  · rcases guest_read_cases b g.uc addr hn with ⟨hcov, -⟩ | ⟨-, hrun'⟩
    · exact absurd (hcovers.mpr hcov) hgap.not_covers
    · exact Or.inr ⟨⟨_, hrun⟩, hrun'⟩

/-- Two contexts that differ in the memory backend only. -/
structure SameContext (c : Context InMemGuest) (c' : Context (UnicornGuest U)) : Prop where
  process : c.process = c'.process
  io : c.io = c'.io
  wf : c.mem.Wf
  mem : SameMemory c.mem c'.mem

theorem handle_agree {d : Dispatch InMemGuest} {d' : Dispatch (UnicornGuest U)}
    (hd : IsStage1 b d) (hd' : IsStage1 b d') {c : Context InMemGuest}
    {c' : Context (UnicornGuest U)} (hc : SameContext c c') (r : SyscallRegs)
    (hcount : r.count ≤ isizeMax) :
    (d.handle r c).1 = (d'.handle r c').1 ∧ (d.handle r c).1.Returns ∧
      SameContext (d.handle r c).2 (d'.handle r c').2 := by
  by_cases he : r.IsExit
  · rw [handle_exit b hd r he, handle_exit b hd' r he]
    exact ⟨rfl, Outcome.returns_ok _, rfl, hc.io, hc.wf, hc.mem⟩
  by_cases hw : r.IsStreamWrite
  · rw [handle_write b hd r hw, handle_write b hd' r hw]
    rcases read_agree b hc.wf hc.mem r.arg1 hcount with ⟨bs, hread, hread'⟩ | ⟨⟨e, he⟩, ⟨e', he'⟩⟩
    · rw [hread, hread']
      exact ⟨rfl, Outcome.returns_ok _, hc.process, by rw [hc.io], hc.wf, hc.mem⟩
    · rw [he, he']
      exact ⟨rfl, Outcome.returns_err _, hc⟩
  · rw [handle_refused b hd r hw he, handle_refused b hd' r hw he]
    exact ⟨rfl, Outcome.returns_ok _, hc⟩

theorem nameOf_stage1 {M : Type} [GuestMemory M] {d : Dispatch M} (hd : IsStage1 b d) (nr : ℤ) :
    d.nameOf nr = if nr = 1 then "write" else if nr = 60 then "exit"
      else if nr = 231 then "exit_group" else "<unimplemented>" := by
  unfold Dispatch.nameOf
  rw [find_stage1 b hd]
  split_ifs <;> rfl

/-- The same value, and a value: the call came back. -/
def SameAnswer (o o' : Outcome DispatchError SyscallOutcome) : Prop := o = o' ∧ o.Returns

/-- Dispatcher and context of the two sides. -/
structure Lockstep (s : Dispatch InMemGuest × Context InMemGuest)
    (t : Dispatch (UnicornGuest U) × Context (UnicornGuest U)) : Prop where
  left : IsStage1 b s.1
  right : IsStage1 b t.1
  trace : s.1.trace = t.1.trace
  context : SameContext s.2 t.2

theorem lockstep_dispatch {s : Dispatch InMemGuest × Context InMemGuest}
    {t : Dispatch (UnicornGuest U) × Context (UnicornGuest U)} (h : Lockstep b s t)
    (r : SyscallRegs) (hcount : r.count ≤ isizeMax) :
    SameAnswer (Dispatch.dispatch r s).1 (Dispatch.dispatch r t).1 ∧
      Lockstep b (Dispatch.dispatch r s).2 (Dispatch.dispatch r t).2 := by
  obtain ⟨d, c⟩ := s
  obtain ⟨d', c'⟩ := t
  obtain ⟨hd, hd', htrace, hc⟩ := h
  obtain ⟨hval, hret, hctx⟩ := handle_agree b hd hd' hc r hcount
  refine ⟨?_, ⟨?_, ?_, ?_, ?_⟩⟩
  · rw [Dispatch.dispatch_fst, Dispatch.dispatch_fst]
    exact ⟨hval, hret⟩
  · exact (Dispatch.dispatch_handlers d c r).trans hd
  · exact (Dispatch.dispatch_handlers d' c' r).trans hd'
  · simp only at htrace
    rw [Dispatch.dispatch_trace, Dispatch.dispatch_trace, hval, htrace, nameOf_stage1 b hd,
      nameOf_stage1 b hd']
  · rw [Dispatch.dispatch_ctx, Dispatch.dispatch_ctx]
    exact hctx

/-- What can be seen of the two sides after the same calls. -/
structure SameSeen (out : List (Outcome DispatchError SyscallOutcome) × Dispatch InMemGuest ×
      Context InMemGuest)
    (out' : List (Outcome DispatchError SyscallOutcome) × Dispatch (UnicornGuest U) ×
      Context (UnicornGuest U)) : Prop where
  results : List.Forall₂ SameAnswer out.1 out'.1
  process : out.2.2.process = out'.2.2.process
  stdout : out.2.2.io.stdout = out'.2.2.io.stdout
  stderr : out.2.2.io.stderr = out'.2.2.io.stderr
  combined : out.2.2.io.combined = out'.2.2.io.combined
  trace : out.2.1.trace = out'.2.1.trace

/-- Over the same memory the stage-1 handlers behave the same on both backends,
through any calls with counts of at most `isize::MAX`. -/
theorem backends_agree (trace : Option TraceSink) (c : Context InMemGuest)
    (c' : Context (UnicornGuest U)) (hwf : c.mem.Wf) (hmem : SameMemory c.mem c'.mem)
    (hprocess : c.process = c'.process) (hio : c.io = c'.io) (calls : List SyscallRegs)
    (hcount : ∀ r ∈ calls, r.count ≤ isizeMax) :
    SameSeen (Act.runAll Dispatch.dispatch calls (stage1 b trace, c))
      (Act.runAll Dispatch.dispatch calls (stage1 b trace, c')) := by
  have hstart : Lockstep b (stage1 b trace, c) (stage1 b trace, c') :=
    ⟨stage1_isStage1 b trace, stage1_isStage1 b trace, rfl, hprocess, hio, hwf, hmem⟩
  obtain ⟨hval, hend⟩ := Act.runAll_bisim (R := Lockstep b)
    (fun s t r h hr => lockstep_dispatch b h r hr) hcount hstart
  have hio := hend.context.io
  exact ⟨hval, hend.context.process, congrArg OutputCapture.stdout hio,
    congrArg OutputCapture.stderr hio, congrArg OutputCapture.combined hio, hend.trace⟩

end Backends

def zeroPageGuest : InMemGuest := ⟨BTreeMap.empty.insert 0x400000 (List.replicate 0x1000 0)⟩

def zeroPageEngine : FlatEngine := ⟨[⟨0x400000, 0x1000, Prot.READ⟩], fun _ => 0, fun _ => 0, false⟩

theorem zeroPageGuest_wf : zeroPageGuest.Wf := by
  have hentry : ∀ e ∈ zeroPageGuest.bytes.entries, e = (0x400000, List.replicate 0x1000 0) :=
    fun e he => List.mem_singleton.mp he
  refine ⟨?_, ?_, ?_⟩
  · intro d hd e he hne
    exact absurd ((hentry d hd).trans (hentry e he).symm) hne
  · intro e he
    rw [hentry e he, List.length_replicate]
    decide
  · intro e he
    rw [hentry e he, List.length_replicate]
    decide

theorem zeroPage_sameMemory :
    SameMemory zeroPageGuest (⟨zeroPageEngine⟩ : UnicornGuest FlatEngine) := by
  have hspace : ∀ a, (LawfulUnicorn.space zeroPageEngine).Mapped a ↔ a ∈ span 0x400000 0x1000 := by
    intro a
    show (∃ m ∈ zeroPageEngine.mappings, a ∈ m.range) ↔ _
    simp [zeroPageEngine, Mapping.range]
  have hguest : zeroPageGuest.contents =
      InMemGuest.new.contents.fill (0x400000 : U64).toNat 0x1000 0 := by
    apply InMemGuest.contents_add InMemGuest.wf_new.separated zeroPageGuest_wf.separated
    intro e
    rw [zeroPageGuest, BTreeMap.mem_insert]
    exact or_congr_right ⟨And.left, fun h => absurd h List.not_mem_nil⟩
  unfold SameMemory
  rw [hguest]
  funext a
  unfold FlatMemory.fill
  by_cases ha : a ∈ span (0x400000 : U64).toNat 0x1000
  · rw [if_pos ha, AddressSpace.contents_of_mapped ((hspace a).mpr ha)]
    rfl
  · rw [if_neg ha]
    symm
    by_contra h
    exact ha ((hspace a).mp ((AddressSpace.contents_ne_none_iff _ a).mp h))

theorem zeroPage_agree :
    SameSeen
      (Act.runAll Dispatch.dispatch [SyscallRegs.fromRegs 1 #v[1, 0x400ffe, 2, 0, 0, 0] 0x401000,
          SyscallRegs.fromRegs 1 #v[1, 0x400fff, 2, 0, 0, 0] 0x401002]
        (stage1 .debug none, ⟨.running, zeroPageGuest, OutputCapture.default⟩))
      (Act.runAll Dispatch.dispatch [SyscallRegs.fromRegs 1 #v[1, 0x400ffe, 2, 0, 0, 0] 0x401000,
          SyscallRegs.fromRegs 1 #v[1, 0x400fff, 2, 0, 0, 0] 0x401002]
        (stage1 .debug none, ⟨.running, (⟨zeroPageEngine⟩ : UnicornGuest FlatEngine),
          OutputCapture.default⟩)) :=
  backends_agree .debug none _ _ zeroPageGuest_wf zeroPage_sameMemory rfl rfl _ (by decide)

end WinVpwn.Syscall

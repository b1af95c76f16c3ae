import WinVpwn.Cpu.TwoEngines
import WinVpwn.Python.Session

/-!
# `run_elf` on another engine

The dict of a run depends on the engine only through the memory, the registers the
crate names and the syscalls the guest makes. Two engines that agree on these are
interchangeable, up to the words of their own errors.
-/

namespace WinVpwn.Python
open Rust Lib WinVpwn.Elf WinVpwn.Cpu WinVpwn.Syscall WinVpwn.Trace WinVpwn.Vkernel

/-- The same exception, up to the engine's part of an error text. -/
def PyErr.Matches (e e' : PyErr) : Prop :=
  e = e' ∨ ∃ x y : VcpuError, x.Matches y ∧ e = toErr x ∧ e' = toErr y

/-- Two hosts that differ in the engine alone, and whose engines go through the same
syscalls when they are started looking the same. -/
structure Interchangeable {U V : Type} [FramedUnicorn U] [FramedUnicorn V] (h : Host U)
    (h' : Host V) : Prop where
  build : h.build = h'.build
  parse : h.parse = h'.parse
  engines : (∃ uc vc, h.newEngine = .ok uc ∧ h'.newEngine = .ok vc ∧ SameView uc vc) ∨
    ∃ e e', h.newEngine = .error e ∧ h'.newEngine = .error e'
  runs : ∀ call uc vc, SameView uc vc → (h.emuStart call uc).Sim (h'.emuStart call vc)
  left : ∀ call uc, (h.emuStart call uc).Obeys
  right : ∀ call vc, (h'.emuStart call vc).Obeys

section Swap
variable {U V : Type} [FramedUnicorn U] [FramedUnicorn V] {h : Host U} {h' : Host V}

/-- Both guests are ready and twins, or neither is, and for the same cause. -/
inductive ReadyTwins (b : Build) : Outcome PyErr (Vcpu U) → Outcome PyErr (Vcpu V) → Prop
  | ok (v : Vcpu U) (w : Vcpu V) (htwin : Twin b v w) : ReadyTwins b (.ok v) (.ok w)
  | err (e e' : PyErr) (he : e.Matches e') : ReadyTwins b (.err e) (.err e')
  | fault (p : Fault) : ReadyTwins b (.fault p) (.fault p)

theorem twin_new (b : Build) {uc : U} {vc : V} (hview : SameView uc vc) :
    Twin b (Vcpu.new (runDispatch b) uc) (Vcpu.new (runDispatch b) vc) :=
  ⟨⟨stage1_isStage1 b none, stage1_isStage1 b none, rfl, rfl⟩, hview, rfl, rfl⟩

theorem ready_twins (hh : Interchangeable h h') (image : Image) :
    ReadyTwins h.build (ready h image) (ready h' image) := by
  obtain ⟨hbuild, hparse, hengines, -, -, -⟩ := hh
  cases hload : loadElf h.build h.parse image with
  | err e =>
    have hload' := hload
    rw [hbuild, hparse] at hload'
    unfold ready
    rw [hload, hload']
    exact .err _ _ (.inl rfl)
  | fault p =>
    have hload' := hload
    rw [hbuild, hparse] at hload'
    unfold ready
    rw [hload, hload']
    exact .fault p
  | ok elf =>
    have hload' := hload
    rw [hbuild, hparse] at hload'
    rcases hengines with ⟨uc, vc, hnew, hnew', hview⟩ | ⟨e, e', hnew, hnew'⟩
    · rw [ready_of_engine h hload hnew, ready_of_engine h' hload' hnew', ← hbuild]
      obtain ⟨hval, htwin⟩ := tied_prepare (b := h.build) elf _ _ (twin_new h.build hview)
      generalize Vcpu.prepare h.build elf (Vcpu.new (runDispatch h.build) uc) = left at *
      generalize Vcpu.prepare h.build elf (Vcpu.new (runDispatch h.build) vc) = right at *
      obtain ⟨o, v⟩ := left
      obtain ⟨o', w⟩ := right
      cases hval with
      | ok _ => exact .ok v w htwin
      | @err x y hxy => exact .err _ _ (.inr ⟨x, y, hxy, rfl, rfl⟩)
      | fault p => exact .fault p
    · unfold ready
      rw [hload, hload', hnew, hnew']
      exact .err _ _ (.inr ⟨.init e, .init e', trivial, rfl, rfl⟩)

theorem result_alike {b : Build} {v : Vcpu U} {w : Vcpu V} (halike : Alike b v w)
    (hview : SameView v.uc w.uc) (hsim : ∀ call, (h.emuStart call v.uc).Sim (h'.emuStart call w.uc))
    (hobeys : ∀ call, (h.emuStart call v.uc).Obeys)
    (hobeys' : ∀ call, (h'.emuStart call w.uc).Obeys) (timeoutMs : U64) :
    ((Vcpu.run timeoutMs h.emuStart v).1.mapErr toErr >>= fun reason =>
        .ok (report (Vcpu.run timeoutMs h.emuStart v).2 reason)) =
      (Vcpu.run timeoutMs h'.emuStart w).1.mapErr toErr >>= fun reason =>
        .ok (report (Vcpu.run timeoutMs h'.emuStart w).2 reason) := by
  obtain ⟨hres, halike'⟩ := run_alike timeoutMs halike hview hsim hobeys hobeys'
  generalize Vcpu.run timeoutMs h.emuStart v = ran at *
  generalize Vcpu.run timeoutMs h'.emuStart w = ran' at *
  obtain ⟨o, v'⟩ := ran
  obtain ⟨o', w'⟩ := ran'
  obtain rfl : o = o' := hres
  cases o with
  | err e => rfl
  | fault p => rfl
  | ok reason =>
    have houtput : v'.output = w'.output := congrArg SharedState.output halike'.shared
    show Outcome.ok (report v' reason) = .ok (report w' reason)
    unfold report
    rw [halike'.trace, houtput]

end Swap

def usedEngine : FlatEngine := { FlatEngine.new with reg := fun
  | .other id => BitVec.ofNat 64 id
  | _ => 0 }

theorem greetingRun_sim (call : EmuCall) {e e' : FlatEngine} (h : SameView e e') :
    (greetingRun call e).Sim (greetingRun call e') := by
  refine ⟨⟨h.space, fun r hr => ?_, h.stop⟩, fun e₁ e₁' h₁ => ?_⟩
  · have hsame := h.regs r hr
    cases r <;> first | rfl | exact hsame
  have hstop : e₁.stopped = e₁'.stopped := h₁.stop
  by_cases hs : e₁.stopped = true
  · dsimp only
    rw [if_pos hs, if_pos (hstop ▸ hs)]
    exact ⟨rfl, h₁⟩
  · dsimp only
    rw [if_neg hs, if_neg (hstop ▸ hs)]
    refine ⟨⟨h₁.space, fun r hr => ?_, h₁.stop⟩, fun e₂ e₂' h₂ => ⟨rfl, h₂⟩⟩
    have hsame := h₁.regs r hr
    cases r <;> first | rfl | exact hsame

def usedHost : Host FlatEngine := { hostOf greeting with newEngine := .ok usedEngine }

theorem usedHost_interchangeable : Interchangeable (hostOf greeting) usedHost where
  build := rfl
  parse := rfl
  engines := by
    refine .inl ⟨FlatEngine.new, usedEngine, rfl, rfl, rfl, fun r hr => ?_, rfl⟩
    cases r <;> first | rfl | exact hr.elim
  runs call uc vc hview := greetingRun_sim call hview
  left := (hostOf_lawful greeting).obeys
  right := (hostOf_lawful greeting).obeys

end WinVpwn.Python

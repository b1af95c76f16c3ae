import WinVpwn.Cpu.StartImage
import WinVpwn.Cpu.Transparent
import WinVpwn.Syscall.DispatchImpl

/-!
# When a `Vcpu` comes back

How the preparation of a guest ends on an engine with nothing mapped, and which
syscalls keep a run from coming back.
-/

namespace WinVpwn.Cpu
open Rust Lib WinVpwn.Memory WinVpwn.Elf WinVpwn.Syscall WinVpwn.Vkernel

/-! ### The errors of a mapping -/

def VcpuError.IsMap : VcpuError → Prop
  | .map _ _ => True
  | _ => False

theorem pageRange_errorless {ε : Type} (b : Build) (seg : Segment) :
    (Vcpu.pageRange b seg : Outcome ε (U64 × U64)).Errorless := by
  refine Outcome.errorless_bind (Build.errorless_add b _ _) fun memEnd => ?_
  refine Outcome.errorless_bind (Build.errorless_add b _ _) fun fileEnd => ?_
  refine Outcome.errorless_bind (Build.errorless_add b _ _) fun up => ?_
  refine Outcome.errorless_bind (Build.errorless_sub b _ _) fun up' => ?_
  exact Outcome.errorless_bind (Build.errorless_sub b _ _) fun size => Outcome.errorless_ok _

section Errors
variable {U : Type} [Unicorn U]

omit [Unicorn U] in
theorem errsIn_onEngine {P : VcpuError → Prop} {α : Type} {f : String → VcpuError}
    (hf : ∀ msg, P (f msg)) (call : U → Except String α × U) :
    Act.ErrsIn P (Vcpu.onEngine f call) := by
  intro v e he
  simp only [Vcpu.onEngine, Act.zoom, engineCall] at he
  rcases hrun : call v.uc with ⟨res, uc⟩
  rw [hrun] at he
  cases res with
  | ok a => cases he
  | error msg =>
    cases he
    exact hf msg

theorem errsIn_mapRange (b : Build) (base size : U64) (flags : U32) (prot : Prot) :
    Act.ErrsIn VcpuError.IsMap
      (Vcpu.mapRange b base size flags prot : Act (Vcpu U) VcpuError Unit) := by
  apply Act.errsIn_bind
  · intro v e he
    simp only [Vcpu.claimRange, Act.zoom, Act.mapErr] at he
    cases hres : (MemoryMap.insert b base size flags v.map).1 with
    | ok a =>
      rw [hres] at he
      cases he
    | err m =>
      rw [hres] at he
      cases he
      trivial
    | fault p =>
      rw [hres] at he
      cases he
  · intro _
    exact errsIn_onEngine (f := .map base) (fun _ => trivial) _

omit [Unicorn U] in
theorem errsIn_modify (g : Vcpu U → Vcpu U) :
    Act.ErrsIn VcpuError.IsMap (Act.modify g : Act (Vcpu U) VcpuError Unit) :=
  fun _ _ he => by cases he

theorem errsIn_mapMemory (b : Build) (base size : U64) (prot : Prot) :
    Act.ErrsIn VcpuError.IsMap
      (Vcpu.mapMemory b base size prot : Act (Vcpu U) VcpuError Unit) :=
  Act.errsIn_bind (errsIn_mapRange b base size 0 prot) fun _ => errsIn_modify _

theorem errsIn_mapSegment (b : Build) (seg : Segment) :
    Act.ErrsIn VcpuError.IsMap (Vcpu.mapSegment b seg : Act (Vcpu U) VcpuError Unit) := by
  refine Act.errsIn_bind (Act.errsIn_lift (pageRange_errorless b seg)) fun range => ?_
  refine Act.errsIn_bind (errsIn_mapRange b range.1 range.2 _ _) fun _ => ?_
  refine Act.errsIn_bind (Act.errsIn_lift (Build.errorless_sub b _ _)) fun offset => ?_
  refine Act.errsIn_bind (Act.errsIn_lift (errorless_slice _ _ _)) fun data => ?_
  refine Act.errsIn_bind (Act.errsIn_lift (Build.errorless_add b _ _)) fun addr => ?_
  refine Act.errsIn_bind ?_ fun _ => errsIn_modify _
  exact errsIn_onEngine (f := .map range.1) (fun _ => trivial) _

end Errors

/-! ### The segments on a fresh engine -/

/-- `map_elf` gets to a segment it cannot round: those before it all fit. -/
def Overflows (b : Build) (segs : List Segment) : Prop :=
  ∃ pre seg post, segs = pre ++ seg :: post ∧ Placed pre ∧ ¬seg.Rounds b

/-- The segments can be mapped side by side, and the stack with them. -/
structure Fits (segs : List Segment) : Prop where
  placed : Placed segs
  stack : ∀ seg ∈ segs, Disjoint seg.pages stackRange

section Outcomes
variable {U : Type} [LawfulUnicorn U] {b : Build}

theorem rounds_cons {done segs : List Segment} {seg : Segment} (hr : seg.Rounds b)
    (hrest : ∀ pre s post, segs = pre ++ s :: post → Placed (done ++ [seg] ++ pre) → s.Rounds b) :
    ∀ pre s post, seg :: segs = pre ++ s :: post → Placed (done ++ pre) → s.Rounds b := by
  intro pre s post heq hplaced
  cases pre with
  | nil =>
    obtain ⟨rfl, -⟩ := List.cons.inj heq
    exact hr
  | cons t pre =>
    obtain ⟨rfl, htail⟩ := List.cons.inj heq
    rw [List.append_cons] at hplaced
    exact hrest pre s post htail hplaced

theorem mapLoop_outcomes (segs : List Segment) {done : List Segment} {v : Vcpu U}
    (hinv : MapInv b done v) (hv : ∀ seg ∈ segs, seg.Valid) :
    (∃ v', segs.forM (Vcpu.mapSegment b) v = (.ok (), v') ∧ MapInv b (done ++ segs) v' ∧
      ∀ seg ∈ segs, seg.Rounds b) ∨
    (∃ pre seg post v', segs = pre ++ seg :: post ∧ Placed (done ++ pre) ∧ ¬seg.Rounds b ∧
      segs.forM (Vcpu.mapSegment b) v = (.fault .overflow, v')) ∨
    (¬Placed (done ++ segs) ∧
      (∀ pre seg post, segs = pre ++ seg :: post → Placed (done ++ pre) → seg.Rounds b) ∧
      ∃ e v', segs.forM (Vcpu.mapSegment b) v = (.err e, v')) := by
  induction segs generalizing done v with
  | nil => exact .inl ⟨v, rfl, by simpa using hinv, by simp⟩
  | cons seg segs ih =>
    rw [Act.forM_cons_apply]
    have hvseg := hv seg (List.mem_cons_self ..)
    by_cases hr : seg.Rounds b
    swap
    · refine .inr (.inl ⟨[], seg, segs, v, rfl, ?_, hr, ?_⟩)
      · rw [List.append_nil]
        exact hinv.placed
      · exact Act.bind_of_fault (mapSegment_unrounded hvseg hr)
    rw [List.append_cons]
    rcases mapInv_step hinv hvseg hr with ⟨v', hrun, hinv'⟩ | ⟨hbad, e, v', hrun⟩
    · rw [Act.bind_of_ok hrun]
      rcases ih hinv' fun s hs => hv s (List.mem_cons_of_mem _ hs) with
        ⟨v'', hloop, hinv'', hround⟩ | ⟨pre, s, post, v'', rfl, hplaced, hs, hloop⟩ |
        ⟨hnot, hround, e, v'', hloop⟩
      · exact .inl ⟨v'', hloop, hinv'', List.forall_mem_cons.mpr ⟨hr, hround⟩⟩
      · rw [← List.append_cons] at hplaced
        exact .inr (.inl ⟨seg :: pre, s, post, v'', rfl, hplaced, hs, hloop⟩)
      · exact .inr (.inr ⟨hnot, rounds_cons hr hround, e, v'', hloop⟩)
    · -- the segment is in the way, so no later one is ever looked at
      have hnot : ∀ l, ¬Placed (done ++ [seg] ++ l) :=
        fun l hplaced => hbad (placed_of_append l hplaced)
      exact .inr (.inr ⟨hnot segs, rounds_cons hr fun pre _ _ _ h => absurd h (hnot pre), e, v',
        Act.bind_of_err hrun⟩)

theorem mapStack_outcomes {segs : List Segment} {v : Vcpu U} (hinv : MapInv b segs v) :
    (∃ v', Vcpu.mapStack b STACK_BASE STACK_SIZE v = (.ok (), v') ∧ Fits segs ∧
      ∃ base, LawfulUnicorn.space v'.uc = (base : AddressSpace Prot U8).map STACK_BASE.toNat
        STACK_SIZE.toNat (Prot.READ ||| Prot.WRITE)) ∨
    (¬Fits segs ∧ ∃ e v', Vcpu.mapStack b STACK_BASE STACK_SIZE v = (.err e, v')) := by
  have hends : MemoryMap.Ends b STACK_BASE STACK_SIZE := ⟨by decide, fun _ => by decide⟩
  unfold Vcpu.mapStack Vcpu.mapMemory
  rcases mapRange_cases hinv.tracked 0 (Prot.READ ||| Prot.WRITE) hends with
    ⟨hfree, v', hrun, -, hspace⟩ | ⟨hbusy, e, v', hrun⟩
  · refine .inl ⟨_, (Act.bind_of_ok hrun).trans rfl, ⟨hinv.placed, ?_⟩, _, hspace⟩
    intro seg hseg
    apply hfree.clear (segmentPiece seg).mapping
    rw [hinv.space]
    exact (AddressSpace.mem_mappings_loadAll ..).mpr (.inr ⟨_, List.mem_map_of_mem hseg, rfl⟩)
  · refine .inr ⟨fun hfits => hbusy ?_, e, v', Act.bind_of_err hrun⟩
    refine ⟨by decide, by decide, by decide, by decide, fun m hm => ?_⟩
    rw [hinv.space] at hm
    rcases (AddressSpace.mem_mappings_loadAll ..).mp hm with hm | ⟨p, hp, rfl⟩
    · exact absurd hm (Set.notMem_empty m)
    · obtain ⟨seg, hseg, rfl⟩ := List.mem_map.mp hp
      exact hfits.stack seg hseg

/- The frame lies in the stack just mapped, and the registers take any value. -/
theorem setupInitialState_succeeds {base : AddressSpace Prot U8} {v : Vcpu U} (entry : U64)
    (hspace : LawfulUnicorn.space v.uc =
      base.map STACK_BASE.toNat STACK_SIZE.toNat (Prot.READ ||| Prot.WRITE)) :
    ∃ v', Vcpu.setupInitialState b entry (STACK_BASE + STACK_SIZE) v = (.ok (), v') := by
  have hsub : (b.sub (STACK_BASE + STACK_SIZE) 0x20 : Outcome VcpuError U64) =
      .ok (STACK_BASE + STACK_SIZE - 0x20) := Build.sub_eq b _ _ (by decide)
  have hcovers : (LawfulUnicorn.space v.uc).Covers (STACK_BASE + STACK_SIZE - 0x20).toNat
      (List.replicate 0x20 (0 : U8)).length := by
    rw [hspace]
    exact AddressSpace.covers_map _ _ (by decide) (by decide)
  obtain ⟨uc₁, hframe⟩ := (LawfulUnicorn.memWrite_ok_iff v.uc _ _).mpr hcovers
  obtain ⟨uc₂, hrsp⟩ := LawfulUnicorn.regWrite_ok uc₁ (r := .RSP) trivial
    (STACK_BASE + STACK_SIZE - 0x20)
  obtain ⟨uc₃, hrip⟩ := LawfulUnicorn.regWrite_ok uc₂ (r := .RIP) trivial entry
  refine ⟨{ v with uc := uc₃ }, ?_⟩
  unfold Vcpu.setupInitialState
  rw [Act.bind_of_ok (t := v) (by rw [Act.lift_apply, hsub])]
  rw [Act.bind_of_ok (onEngine_eq_ok.mpr ⟨uc₁, hframe, rfl⟩)]
  rw [Act.bind_of_ok (onEngine_eq_ok.mpr ⟨uc₂, hrsp, rfl⟩)]
  exact onEngine_eq_ok.mpr ⟨uc₃, hrip, rfl⟩

theorem prepare_outcomes {elf : LoadedElf} (hv : ∀ seg ∈ elf.segments, seg.Valid)
    (dispatch : Dispatch (UnicornGuest U)) {uc : U}
    (huc : LawfulUnicorn.space uc = AddressSpace.empty) :
    (∃ v, Vcpu.prepare b elf (Vcpu.new dispatch uc) = (.ok (), v) ∧ Fits elf.segments ∧
      ¬Overflows b elf.segments) ∨
    ((∃ v, Vcpu.prepare b elf (Vcpu.new dispatch uc) = (.fault .overflow, v)) ∧
      Overflows b elf.segments) ∨
    (∃ e v, Vcpu.prepare b elf (Vcpu.new dispatch uc) = (.err e, v) ∧ e.IsMap ∧
      ¬Fits elf.segments ∧ ¬Overflows b elf.segments) := by
  unfold Vcpu.prepare Vcpu.mapElf
  have herrs := Act.errsIn_forM (errsIn_mapSegment (U := U) b) elf.segments
  rcases mapLoop_outcomes elf.segments (mapInv_new b dispatch huc) hv with
    ⟨v, hrun, hinv, hround⟩ | ⟨pre, seg, post, v, heq, hplaced, hr, hrun⟩ |
    ⟨hnot, hround, e, v, hrun⟩
  · have hover : ¬Overflows b elf.segments := by
      intro h
      obtain ⟨pre, seg, post, heq, -, hr⟩ := h
      exact hr (hround seg (heq ▸ List.mem_append_right _ (List.mem_cons_self ..)))
    rw [Act.bind_of_ok hrun]
    rcases mapStack_outcomes hinv with ⟨v₁, hstack, hfits, base, hspace⟩ | ⟨hbusy, e, v₁, hstack⟩
    · obtain ⟨v₂, hsetup⟩ := setupInitialState_succeeds (b := b) elf.entry hspace
      exact .inl ⟨v₂, (Act.bind_of_ok hstack).trans hsetup, hfits, hover⟩
    · have hmap : e.IsMap := errsIn_mapMemory b _ _ _ v e (by
        show (Vcpu.mapStack b STACK_BASE STACK_SIZE v).1 = _
        rw [hstack])
      exact .inr (.inr ⟨e, v₁, Act.bind_of_err hstack, hmap, hbusy, hover⟩)
  · exact .inr (.inl ⟨⟨v, Act.bind_of_fault hrun⟩, pre, seg, post, heq, hplaced, hr⟩)
  · refine .inr (.inr ⟨e, v, Act.bind_of_err hrun, ?_, fun hfits => hnot hfits.placed, ?_⟩)
    · exact herrs _ e (by rw [hrun])
    · intro h
      obtain ⟨pre, seg, post, heq, hplaced, hr⟩ := h
      exact hr (hround pre seg post heq hplaced)

end Outcomes

/-! ### The deliveries of a run -/

section Deliveries
variable {U : Type} [Unicorn U]

theorem emulate_returns (exec : Execution U) (v : Vcpu U) :
    ((∃ status v', Vcpu.emulate exec v = (.ok status, v')) ∧
      ∀ e ∈ Vcpu.events exec v, e.outcome.Returns) ∨
    ((∃ p v', Vcpu.emulate exec v = (.fault p, v')) ∧
      ∃ e ∈ Vcpu.events exec v, ¬e.outcome.Returns) := by
  induction exec generalizing v with
  | done uc status => exact .inl ⟨⟨status, { v with uc := uc }, rfl⟩, by simp [Vcpu.events]⟩
  | syscall uc resume ih =>
    rw [Vcpu.emulate_syscall, Vcpu.events, syscallHook_handled]
    cases hout : ({ v with uc := uc } : Vcpu U).event.outcome with
    | fault p =>
      refine .inr ⟨⟨p, _, rfl⟩, _, List.mem_cons_self .., ?_⟩
      rw [hout]
      exact Outcome.not_returns_fault p
    | ok o =>
      rcases ih _ (Vcpu.answer (Vcpu.dispatched { v with uc := uc }) (.ok o)) with
        ⟨hrun, hall⟩ | ⟨hrun, hsome⟩
      · refine .inl ⟨hrun, List.forall_mem_cons.mpr ⟨?_, hall⟩⟩
        rw [hout]
        exact Outcome.returns_ok o
      · obtain ⟨e, he, hbad⟩ := hsome
        exact .inr ⟨hrun, e, List.mem_cons_of_mem _ he, hbad⟩
    | err d =>
      rcases ih _ (Vcpu.answer (Vcpu.dispatched { v with uc := uc }) (.err d)) with
        ⟨hrun, hall⟩ | ⟨hrun, hsome⟩
      · refine .inl ⟨hrun, List.forall_mem_cons.mpr ⟨?_, hall⟩⟩
        rw [hout]
        exact Outcome.returns_err d
      · obtain ⟨e, he, hbad⟩ := hsome
        exact .inr ⟨hrun, e, List.mem_cons_of_mem _ he, hbad⟩

end Deliveries

section Stage1
variable {U : Type} [LawfulUnicorn U] {b : Build}

/- Only a write to stdout or stderr can fail to return, for want of a buffer. -/
theorem event_returns_iff {v : Vcpu U} (hd : IsStage1 b v.dispatch) :
    v.event.outcome.Returns ↔ (v.event.regs.IsStreamWrite → v.event.regs.count ≤ isizeMax) := by
  rw [event_outcome, show v.event.regs = Vcpu.hookRegs v.uc from rfl]
  by_cases hw : (Vcpu.hookRegs v.uc).IsStreamWrite
  · have hread := UnicornGuest.read_returns_iff b (⟨v.uc⟩ : UnicornGuest U)
      (Vcpu.hookRegs v.uc).arg1 (Vcpu.hookRegs v.uc).count
    rw [handle_write b hd _ hw, show (Vcpu.hookContext v.uc).mem = ⟨v.uc⟩ from rfl]
    change (GuestMemory.read b (⟨v.uc⟩ : UnicornGuest U) _ _).Returns ↔ _ at hread
    rw [imp_iff_right hw, ← hread]
    generalize GuestMemory.read b (⟨v.uc⟩ : UnicornGuest U) (Vcpu.hookRegs v.uc).arg1
      (Vcpu.hookRegs v.uc).count = res
    cases res with
    | ok bs => exact iff_of_true (Outcome.returns_ok _) (Outcome.returns_ok _)
    | err e => exact iff_of_true (Outcome.returns_err _) (Outcome.returns_err _)
    | fault p => exact iff_of_false (Outcome.not_returns_fault p) (Outcome.not_returns_fault p)
  · refine iff_of_true ?_ fun h => absurd h hw
    by_cases he : (Vcpu.hookRegs v.uc).IsExit
    · rw [handle_exit b hd _ he]
      exact Outcome.returns_ok _
    · rw [handle_refused b hd _ hw he]
      exact Outcome.returns_ok _

theorem events_return_iff (exec : Execution U) {v : Vcpu U} (hd : IsStage1 b v.dispatch) :
    (∀ e ∈ Vcpu.events exec v, e.outcome.Returns) ↔
      ∀ e ∈ Vcpu.events exec v, e.regs.IsStreamWrite → e.regs.count ≤ isizeMax := by
  refine forall₂_congr fun e he => ?_
  obtain ⟨w, rfl, hhandlers⟩ := mem_events he
  exact event_returns_iff (hhandlers.trans hd)

end Stage1
end WinVpwn.Cpu

import WinVpwn.Memory.Claims

/-!
# The order of the claims

Where every range ends below the top, a list of claims is accepted as a whole
exactly when its ranges are pairwise disjoint, and the map then holds the
non-empty ones in the one order in which their bases increase.
-/

namespace WinVpwn.Memory
open Rust Lib

namespace MemoryMap

/-- Every `insert` of the run returned `Ok`. -/
def AllInserted (b : Build) (calls : List Region) : Prop :=
  ∀ out ∈ (Act.runAll (insertRegion b) calls new).1, out = .ok ()

theorem after_snoc (b : Build) (calls : List Region) (r : Region) :
    after b (calls ++ [r]) = (insertRegion b r (after b calls)).2 :=
  Act.runAll_snoc ..

theorem allInserted_snoc (b : Build) (calls : List Region) (r : Region) :
    AllInserted b (calls ++ [r]) ↔
      AllInserted b calls ∧ (insertRegion b r (after b calls)).1 = .ok () := by
  unfold AllInserted after
  rw [Act.runAll_snoc_results]
  simp only [List.forall_mem_append, List.forall_mem_singleton]

theorem disjoint_of_empty {r : Region} (h : r.size = 0) (c : Region) :
    Disjoint c.range r.range :=
  disjoint_span_iff.mpr (.inr (.inl (by rw [h]; rfl)))

theorem disjoint_empty {c : Region} (h : c.size = 0) (r : Region) : Disjoint c.range r.range :=
  (disjoint_of_empty h r).symm

theorem regions_after (b : Build) {calls : List Region} (hcalls : ∀ r ∈ calls, Bounded r)
    (h : AllInserted b calls) :
    (after b calls).regions.Perm (calls.filter fun r => r.size ≠ 0) := by
  induction calls using List.reverseRec with
  | nil => exact .nil
  | append_singleton calls r ih =>
    obtain ⟨hbound, hr⟩ := List.forall_mem_append.mp hcalls
    obtain ⟨hold, hnew⟩ := (allInserted_snoc ..).mp h
    have hstep := insert_faithful b (wf_after b hbound) (hr r (List.mem_singleton_self r))
    rw [after_snoc, List.filter_append]
    by_cases hzero : r.size = 0
    · have hskip : ([r].filter fun r => r.size ≠ 0) = [] :=
        List.filter_cons_of_neg fun hr => of_decide_eq_true hr hzero
      rw [hstep.unchanged (.inr hzero), hskip, List.append_nil]
      exact ih hbound hold
    · have hkeep : ([r].filter fun r => r.size ≠ 0) = [r] :=
        List.filter_cons_of_pos (decide_eq_true hzero)
      rw [hkeep]
      exact (hstep.added hnew hzero).trans ((ih hbound hold).append_right [r])

theorem allInserted_iff (b : Build) {calls : List Region} (hcalls : ∀ r ∈ calls, Bounded r) :
    AllInserted b calls ↔ calls.Pairwise fun r s => Disjoint r.range s.range := by
  induction calls using List.reverseRec with
  | nil => simp [AllInserted]
  | append_singleton calls r ih =>
    obtain ⟨hbound, hr⟩ := List.forall_mem_append.mp hcalls
    have hstep := insert_faithful b (wf_after b hbound) (hr r (List.mem_singleton_self r))
    rw [allInserted_snoc, hstep.ok_iff, List.pairwise_append, ← ih hbound]
    simp only [List.pairwise_singleton, true_and, List.mem_singleton, forall_eq]
    apply and_congr_right
    intro hold
    have hmem := fun c => (regions_after b hbound hold).mem_iff (a := c)
    constructor
    · intro h c hc
      rcases h with h | h
      · exact disjoint_of_empty h c
      · by_cases hzero : c.size = 0
        · exact disjoint_empty hzero r
        · exact h c ((hmem c).mpr (List.mem_filter.mpr ⟨hc, decide_eq_true hzero⟩))
    · intro h
      exact .inr fun c hc => h c (List.mem_of_mem_filter ((hmem c).mp hc))

theorem allInserted_perm (b : Build) {calls calls' : List Region} (h : calls.Perm calls')
    (hcalls : ∀ r ∈ calls, Bounded r) : AllInserted b calls ↔ AllInserted b calls' := by
  rw [allInserted_iff b hcalls, allInserted_iff b fun r hr => hcalls r (h.mem_iff.mpr hr)]
  exact h.pairwise_iff fun hrs => hrs.symm

theorem regions_perm (b : Build) {calls calls' : List Region} (h : calls.Perm calls')
    (hcalls : ∀ r ∈ calls, Bounded r) (hall : AllInserted b calls) :
    (after b calls).regions = (after b calls').regions := by
  have hcalls' : ∀ r ∈ calls', Bounded r := fun r hr => hcalls r (h.mem_iff.mpr hr)
  have hall' := (allInserted_perm b h hcalls).mp hall
  have hkept : (after b calls).regions.Perm (after b calls').regions :=
    (regions_after b hcalls hall).trans
      ((h.filter _).trans (regions_after b hcalls' hall').symm)
  apply hkept.eq_of_pairwise ?_ (wf_after b hcalls).ordered.increasing
    (wf_after b hcalls').ordered.increasing
  intro r s _ _ hrs hsr
  exact absurd hrs (lt_asymm hsr)

end MemoryMap
end WinVpwn.Memory

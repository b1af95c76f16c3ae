import WinVpwn.Syscall.Dispatch
import Mathlib.Data.List.Infix
import Mathlib.Data.List.Nodup

/-!
# Records taken away in batches

`record` and `drain` calls made through the clones of one sink, in the order in
which they got the mutex. A clone shares the buffer, so which of them a call goes
through makes no difference to it. `record` numbers by the length of the buffer,
and `drain` empties the buffer: the numbering starts over with every batch.
-/

namespace WinVpwn.Trace
open Rust WinVpwn.Vkernel WinVpwn.Syscall

/-- What a caller of `record` passes. -/
structure Invocation where
  name : String
  nr : ℤ
  args : Vector U64 6
  rip : U64
  outcome : SyscallOutcome

/-- The record of an invocation under the index `seq`. -/
def Invocation.numbered (c : Invocation) (seq : U64) : TraceRecord :=
  ⟨seq, c.nr, c.name, c.args, TraceSink.retOf c.outcome, c.rip⟩

/-- One call through the clone `via`, a name from any type. -/
inductive SinkCall (H : Type) where
  | record (via : H) (call : Invocation)
  | drain (via : H)

/-- The shared buffer, and the batches its readers took, in drain order. -/
structure Collected where
  batches : List (List TraceRecord)
  sink : TraceSink

namespace Collected
variable {H : Type}

def start : Collected := ⟨[], .new⟩

def step (s : Collected) : SinkCall H → Collected
  | .record _ c => { s with sink := s.sink.record c.name c.nr c.args c.rip c.outcome }
  | .drain _ => ⟨s.batches ++ [s.sink.drain.1], s.sink.drain.2⟩

/-- The calls of a run in the order in which they were made. -/
def run (calls : List (SinkCall H)) : Collected := calls.foldl step start

/-- The drained batches in drain order, then what is still in the sink. -/
def all (s : Collected) : List TraceRecord := s.batches.flatten ++ s.sink.records

theorem run_snoc (calls : List (SinkCall H)) (x : SinkCall H) :
    run (calls ++ [x]) = step (run calls) x :=
  List.foldl_concat ..

/-! ### One call -/

theorem all_record (s : Collected) (via : H) (c : Invocation) : (step s (.record via c)).all =
    s.all ++ [c.numbered (BitVec.ofNat 64 s.sink.records.length)] := by
  show s.batches.flatten ++ (s.sink.records ++ [_]) = s.batches.flatten ++ s.sink.records ++ [_]
  rw [List.append_assoc]
  rfl

/- A batch moves from the sink to its reader; nothing is added or lost. -/
theorem all_drain (s : Collected) (via : H) : (step s (.drain via)).all = s.all := by
  show (s.batches ++ [s.sink.records]).flatten ++ [] = s.batches.flatten ++ s.sink.records
  simp

theorem all_step (s : Collected) (x : SinkCall H) : s.all <+: (step s x).all := by
  cases x with
  | record via c =>
    rw [all_record]
    exact List.prefix_append ..
  | drain via => rw [all_drain]

theorem all_run {pre calls : List (SinkCall H)} (h : pre <+: calls) :
    (run pre).all <+: (run calls).all := by
  induction calls using List.reverseRec with
  | nil => rw [List.prefix_nil.mp h]
  | append_singleton calls x ih =>
    rcases List.prefix_concat_iff.mp h with rfl | h
    · exact List.prefix_rfl
    · rw [run_snoc]
      exact (ih h).trans (all_step _ x)

end Collected

open Collected

/-! ### Nothing is lost -/

/-- The invocations recorded by a run, in order. -/
def invocations {H : Type} (calls : List (SinkCall H)) : List Invocation :=
  calls.filterMap fun
    | .record _ c => some c
    | .drain _ => none

section Run
variable {H : Type}

theorem invocations_record (calls : List (SinkCall H)) (via : H) (c : Invocation) :
    invocations (calls ++ [.record via c]) = invocations calls ++ [c] := by
  simp [invocations]

theorem invocations_drain (calls : List (SinkCall H)) (via : H) :
    invocations (calls ++ [.drain via]) = invocations calls := by
  simp [invocations]

theorem all_kept (calls : List (SinkCall H)) :
    List.Forall₂ (fun r c => r = Invocation.numbered c r.seq) (run calls).all
      (invocations calls) := by
  induction calls using List.reverseRec with
  | nil => exact .nil
  | append_singleton calls x ih =>
    rw [run_snoc]
    cases x with
    | record via c =>
      rw [all_record, invocations_record]
      exact List.rel_append ih (.cons rfl .nil)
    | drain via =>
      rw [all_drain, invocations_drain]
      exact ih

theorem all_length (calls : List (SinkCall H)) :
    (run calls).all.length = (invocations calls).length :=
  (all_kept calls).length_eq

/-! ### The numbering of one buffer -/

/-- The records are numbered from 0 on. -/
def FromZero (l : List TraceRecord) : Prop :=
  l.map TraceRecord.seq = (List.range l.length).map (BitVec.ofNat 64)

/-- The indices increase strictly over the whole list. -/
def Increasing (l : List TraceRecord) : Prop :=
  (l.map TraceRecord.seq).Pairwise (· < ·)

theorem FromZero.snoc {l : List TraceRecord} (h : FromZero l) (c : Invocation) :
    FromZero (l ++ [c.numbered (BitVec.ofNat 64 l.length)]) := by
  unfold FromZero at h ⊢
  rw [List.map_append, h, List.length_append, List.length_singleton, List.range_succ,
    List.map_append]
  rfl

theorem FromZero.increasing {l : List TraceRecord} (h : FromZero l) (hlen : l.length ≤ 2 ^ 64) :
    Increasing l := by
  unfold Increasing
  rw [h, List.pairwise_map]
  apply List.pairwise_lt_range.imp_of_mem
  intro i j hi hj hij
  rw [List.mem_range] at hi hj
  rw [BitVec.lt_def, BitVec.toNat_ofNat, BitVec.toNat_ofNat, Nat.mod_eq_of_lt (by omega),
    Nat.mod_eq_of_lt (by omega)]
  exact hij

/- There are only 2^64 indices. -/
theorem Increasing.length_le {l : List TraceRecord} (h : Increasing l) : l.length ≤ 2 ^ 64 := by
  have hnodup : ((l.map TraceRecord.seq).map BitVec.toNat).Nodup := by
    rw [List.Nodup, List.pairwise_map]
    exact h.imp fun hlt => Nat.ne_of_lt hlt
  have hsub : (l.map TraceRecord.seq).map BitVec.toNat ⊆ List.range (2 ^ 64) := by
    intro n hn
    obtain ⟨w, -, rfl⟩ := List.mem_map.mp hn
    exact List.mem_range.mpr w.isLt
  have hle := (hnodup.subperm hsub).length_le
  simpa only [List.length_map, List.length_range] using hle

/- Nothing can stand before an index 0. -/
theorem not_increasing_append {l l' : List TraceRecord} (hl : l ≠ []) (hl' : l' ≠ [])
    (h : FromZero l') : ¬Increasing (l ++ l') := by
  intro hinc
  unfold Increasing at hinc
  rw [List.map_append, List.pairwise_append] at hinc
  obtain ⟨r, hr⟩ := List.exists_mem_of_ne_nil l hl
  obtain ⟨r', rest, rfl⟩ := List.exists_cons_of_ne_nil hl'
  have hzero : r'.seq = 0 := by
    unfold FromZero at h
    rw [List.length_cons, List.range_succ_eq_map] at h
    exact (List.cons.inj h).1
  have hlt := hinc.2.2 r.seq (List.mem_map_of_mem hr) r'.seq (by simp)
  rw [hzero] at hlt
  exact Nat.not_lt_zero _ hlt

theorem sink_fromZero (calls : List (SinkCall H)) : FromZero (run calls).sink.records := by
  induction calls using List.reverseRec with
  | nil => rfl
  | append_singleton calls x ih =>
    rw [run_snoc]
    cases x with
    | record via c => exact ih.snoc c
    | drain via => rfl

/-! ### When the numbering starts over -/

theorem snoc_sublist_snoc {α : Type} {a b : α} {l m : List α} :
    (l ++ [a]).Sublist (m ++ [b]) ↔ (l ++ [a]).Sublist m ∨ a = b ∧ l.Sublist m := by
  have hrev : (a :: l.reverse).Sublist (b :: m.reverse) ↔
      (a :: l.reverse).Sublist m.reverse ∨ a = b ∧ l.reverse.Sublist m.reverse :=
    List.cons_sublist_cons'
  rwa [← List.reverse_concat, ← List.reverse_concat, List.reverse_sublist, List.reverse_sublist,
    List.reverse_sublist] at hrev

/-- Some record was drained: a `drain` comes after a `record`. -/
def Drained (calls : List (SinkCall H)) : Prop :=
  ∃ v c w, [.record v c, .drain w].Sublist calls

/-- A `record` comes after a `drain` that comes after a `record`. -/
def Restarts (calls : List (SinkCall H)) : Prop :=
  ∃ v c w v' c', [.record v c, .drain w, .record v' c'].Sublist calls

theorem invocations_ne_nil {calls : List (SinkCall H)} :
    invocations calls ≠ [] ↔ ∃ v c, .record v c ∈ calls := by
  constructor
  · intro h
    obtain ⟨c, hc⟩ := List.exists_mem_of_ne_nil _ h
    obtain ⟨x, hx, hxc⟩ := List.mem_filterMap.mp hc
    cases x with
    | record v c' => exact ⟨v, c', hx⟩
    | drain w => cases hxc
  · intro h
    obtain ⟨v, c, hc⟩ := h
    exact List.ne_nil_of_mem (List.mem_filterMap.mpr ⟨_, hc, rfl⟩)

theorem drained_record (calls : List (SinkCall H)) (via : H) (c : Invocation) :
    Drained (calls ++ [.record via c]) ↔ Drained calls := by
  constructor
  · intro h
    obtain ⟨v, c', w, hsub⟩ := h
    rcases (snoc_sublist_snoc (l := [_])).mp hsub with hsub | ⟨hw, -⟩
    · exact ⟨v, c', w, hsub⟩
    · cases hw
  · intro h
    obtain ⟨v, c', w, hsub⟩ := h
    exact ⟨v, c', w, hsub.trans (List.sublist_append_left ..)⟩

theorem drained_drain (calls : List (SinkCall H)) (via : H) :
    Drained (calls ++ [.drain via]) ↔ Drained calls ∨ invocations calls ≠ [] := by
  rw [invocations_ne_nil]
  constructor
  · intro h
    obtain ⟨v, c, w, hsub⟩ := h
    rcases (snoc_sublist_snoc (l := [_])).mp hsub with hsub | ⟨-, hsub⟩
    · exact .inl ⟨v, c, w, hsub⟩
    · exact .inr ⟨v, c, List.singleton_sublist.mp hsub⟩
  · intro h
    rcases h with ⟨v, c, w, hsub⟩ | ⟨v, c, hmem⟩
    · exact ⟨v, c, w, hsub.trans (List.sublist_append_left ..)⟩
    · exact ⟨v, c, via, (snoc_sublist_snoc (l := [_])).mpr
        (.inr ⟨rfl, List.singleton_sublist.mpr hmem⟩)⟩

theorem restarts_record (calls : List (SinkCall H)) (via : H) (c : Invocation) :
    Restarts (calls ++ [.record via c]) ↔ Restarts calls ∨ Drained calls := by
  constructor
  · intro h
    obtain ⟨v, c₁, w, v', c₂, hsub⟩ := h
    rcases (snoc_sublist_snoc (l := [_, _])).mp hsub with hsub | ⟨-, hsub⟩
    · exact .inl ⟨v, c₁, w, v', c₂, hsub⟩
    · exact .inr ⟨v, c₁, w, hsub⟩
  · intro h
    rcases h with ⟨v, c₁, w, v', c₂, hsub⟩ | ⟨v, c₁, w, hsub⟩
    · exact ⟨v, c₁, w, v', c₂, hsub.trans (List.sublist_append_left ..)⟩
    · exact ⟨v, c₁, w, via, c, (snoc_sublist_snoc (l := [_, _])).mpr (.inr ⟨rfl, hsub⟩)⟩

theorem restarts_drain (calls : List (SinkCall H)) (via : H) :
    Restarts (calls ++ [.drain via]) ↔ Restarts calls := by
  constructor
  · intro h
    obtain ⟨v, c₁, w, v', c₂, hsub⟩ := h
    rcases (snoc_sublist_snoc (l := [_, _])).mp hsub with hsub | ⟨hw, -⟩
    · exact ⟨v, c₁, w, v', c₂, hsub⟩
    · cases hw
  · intro h
    obtain ⟨v, c₁, w, v', c₂, hsub⟩ := h
    exact ⟨v, c₁, w, v', c₂, hsub.trans (List.sublist_append_left ..)⟩

theorem batches_ne_nil (calls : List (SinkCall H)) :
    (run calls).batches.flatten ≠ [] ↔ Drained calls := by
  induction calls using List.reverseRec with
  | nil => simp [run, start, Drained]
  | append_singleton calls x ih =>
    rw [run_snoc]
    cases x with
    | record via c =>
      rw [drained_record, ← ih]
      rfl
    | drain via =>
      have hall : (run calls).all ≠ [] ↔ invocations calls ≠ [] := by
        rw [← List.length_pos_iff, ← List.length_pos_iff, all_length]
      have hnext : (step (run calls) (.drain via)).batches.flatten = (run calls).all := by
        show ((run calls).batches ++ [(run calls).sink.records]).flatten = _
        simp [all]
      rw [drained_drain, ← ih, hnext, hall]
      refine ⟨.inr, ?_⟩
      intro h
      rcases h with h | h
      · rw [← hall]
        exact List.append_ne_nil_of_left_ne_nil h _
      · exact h

/- While no record follows a drained one, the numbering has not started over. -/
theorem all_fromZero {calls : List (SinkCall H)} (h : ¬Restarts calls) :
    FromZero (run calls).all := by
  induction calls using List.reverseRec with
  | nil => rfl
  | append_singleton calls x ih =>
    rw [run_snoc]
    cases x with
    | record via c =>
      rw [restarts_record, not_or, ← batches_ne_nil, not_not] at h
      have hall : (run calls).all = (run calls).sink.records := by
        unfold all
        rw [h.2, List.nil_append]
      rw [all_record, ← hall]
      exact (ih h.1).snoc c
    | drain via =>
      rw [restarts_drain] at h
      rw [all_drain]
      exact ih h

/- A record after a drained one has its buffer start at 0 behind an earlier record. -/
theorem not_increasing_of_restarts {calls : List (SinkCall H)} (h : Restarts calls) :
    ¬Increasing (run calls).all := by
  induction calls using List.reverseRec with
  | nil =>
    obtain ⟨v, c, w, v', c', hsub⟩ := h
    cases hsub
  | append_singleton calls x ih =>
    have hearlier : Restarts calls → ¬Increasing (run (calls ++ [x])).all := by
      intro hc hinc
      have hpre := (all_run (List.prefix_append calls [x])).sublist.map TraceRecord.seq
      exact ih hc (hinc.sublist hpre)
    cases x with
    | record via c =>
      rcases (restarts_record calls via c).mp h with h | h
      · exact hearlier h
      · apply not_increasing_append
        · rw [batches_ne_nil, drained_record]
          exact h
        · rw [run_snoc]
          exact List.append_ne_nil_of_right_ne_nil _ (List.cons_ne_nil _ _)
        · exact sink_fromZero _
    | drain via => exact hearlier ((restarts_drain calls via).mp h)

/-! ### The trace as a whole -/

/-- What was drained, followed by what is in the sink, is what was recorded, in order and
once each, under strictly increasing indices. -/
def TraceIntact (calls : List (SinkCall H)) : Prop :=
  List.Forall₂ (fun r c => r = Invocation.numbered c r.seq) (run calls).all (invocations calls)
    ∧ Increasing (run calls).all

/-- The trace of a run is intact exactly when no record is made after a drain that took an
earlier one, and the records are no more than there are indices. -/
theorem traceIntact_iff (calls : List (SinkCall H)) :
    TraceIntact calls ↔ ¬Restarts calls ∧ (invocations calls).length ≤ 2 ^ 64 := by
  constructor
  · intro h
    obtain ⟨-, hinc⟩ := h
    refine ⟨fun hr => not_increasing_of_restarts hr hinc, ?_⟩
    rw [← all_length]
    exact hinc.length_le
  · intro h
    obtain ⟨hr, hlen⟩ := h
    refine ⟨all_kept calls, ?_⟩
    apply (all_fromZero hr).increasing
    rw [all_length]
    exact hlen

end Run

/- Two writes with a `drain` in between: both records have the index 0. -/
def drainedBetween : List (SinkCall Unit) :=
  let write : Invocation := ⟨"write", 1, #v[1, 0, 5, 0, 0, 0], 0x401000, .ret 5⟩
  [.record () write, .drain (), .record () write]

theorem drainedBetween_not_intact : ¬TraceIntact drainedBetween := by
  intro h
  have hinc := h.2
  revert hinc
  unfold Increasing
  decide

end WinVpwn.Trace

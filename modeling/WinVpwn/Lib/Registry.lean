import Mathlib.Data.List.Induction
import Mathlib.Data.List.Nodup

/-!
# A list in which a later entry replaces the earlier ones under its key

`push` drops what the list held under the key of the new entry and appends it.
Under every key the list then holds the entry pushed last, and the first match
is that one because it is the only one.
-/

namespace Registry
variable {κ α : Type} [DecidableEq κ] (key : α → κ)

def push (l : List α) (x : α) : List α := l.filter (fun y => key y ≠ key x) ++ [x]

def pushAll (xs : List α) : List α := xs.foldl (push key) []

/-- Every key is held once. -/
def Unique (l : List α) : Prop := (l.map key).Nodup

/-- The entry pushed last under `k`. -/
def last (xs : List α) (k : κ) : Option α := (xs.filter fun x => key x = k).getLast?

theorem pushAll_snoc (xs : List α) (x : α) :
    pushAll key (xs ++ [x]) = push key (pushAll key xs) x :=
  List.foldl_concat ..

theorem last_snoc (xs : List α) (x : α) (k : κ) :
    last key (xs ++ [x]) k = if key x = k then some x else last key xs k := by
  unfold last
  rw [List.filter_append]
  split
  next h => simp [h]
  next h => simp [h]

theorem last_eq_none {xs : List α} {k : κ} : last key xs k = none ↔ ∀ x ∈ xs, key x ≠ k := by
  simp [last]

theorem last_split {pre post : List α} {x : α} (h : ∀ y ∈ post, key y ≠ key x) :
    last key (pre ++ x :: post) (key x) = some x := by
  have hpost : (post.filter fun y => key y = key x) = [] := by
    rw [List.filter_eq_nil_iff]
    intro y hy
    simpa using h y hy
  simp [last, List.filter_append, hpost]

/-! ### One push -/

theorem mem_keys_push (l : List α) (x : α) (k : κ) :
    k ∈ (push key l x).map key ↔ k ∈ l.map key ∨ k = key x := by
  constructor
  · intro h
    obtain ⟨y, hy, rfl⟩ := List.mem_map.mp h
    rcases List.mem_append.mp hy with hy | hy
    · exact .inl (List.mem_map_of_mem (List.mem_of_mem_filter hy))
    · exact .inr (by rw [List.mem_singleton.mp hy])
  · intro h
    rcases h with h | rfl
    · obtain ⟨y, hy, rfl⟩ := List.mem_map.mp h
      by_cases hk : key y = key x
      · rw [hk]
        exact List.mem_map_of_mem (by simp [push])
      · exact List.mem_map_of_mem (by simp [push, hy, hk])
    · exact List.mem_map_of_mem (by simp [push])

theorem unique_push {l : List α} (h : Unique key l) (x : α) : Unique key (push key l x) := by
  unfold Unique push
  rw [List.map_append, List.map_singleton]
  apply List.Nodup.append
  · exact h.sublist (List.filter_sublist.map key)
  · exact List.nodup_singleton _
  · intro k hk hx
    obtain ⟨y, hy, rfl⟩ := List.mem_map.mp hk
    simp_all

theorem find_push (l : List α) (x : α) (k : κ) :
    (push key l x).find? (fun y => key y = k)
      = if key x = k then some x else l.find? fun y => key y = k := by
  unfold push
  rw [List.find?_append, List.find?_filter]
  split
  next h =>
    -- the filter left no other entry under `k`
    have hnone : l.find? (fun y => decide (decide (key y ≠ key x) ∧ decide (key y = k))) = none := by
      rw [List.find?_eq_none]
      intro y _
      simp [h]
    rw [hnone]
    simp [h]
  next h =>
    have hsame : (fun y => decide (decide (key y ≠ key x) ∧ decide (key y = k)))
        = fun y => decide (key y = k) := by
      funext y
      by_cases hy : key y = k
      · simp [hy, Ne.symm h]
      · simp [hy]
    rw [hsame]
    simp [h]

/-! ### A history of pushes -/

theorem unique_pushAll (xs : List α) : Unique key (pushAll key xs) := by
  induction xs using List.reverseRec with
  | nil => exact List.nodup_nil
  | append_singleton xs x ih =>
    rw [pushAll_snoc]
    exact unique_push key ih x

theorem find_pushAll (xs : List α) (k : κ) :
    (pushAll key xs).find? (fun y => key y = k) = last key xs k := by
  induction xs using List.reverseRec with
  | nil => rfl
  | append_singleton xs x ih => rw [pushAll_snoc, find_push, ih, last_snoc]

theorem mem_keys_pushAll (xs : List α) (k : κ) :
    k ∈ (pushAll key xs).map key ↔ k ∈ xs.map key := by
  induction xs using List.reverseRec with
  | nil => rfl
  | append_singleton xs x ih =>
    rw [pushAll_snoc, mem_keys_push, ih, List.map_append, List.mem_append, List.map_singleton,
      List.mem_singleton]

/-- Two histories that agree under each key, in the order of their entries there. -/
def Reordered (xs ys : List α) : Prop :=
  xs.Perm ys ∧ ∀ k, (xs.filter fun x => key x = k) = ys.filter fun x => key x = k

theorem Reordered.last_eq {xs ys : List α} (h : Reordered key xs ys) (k : κ) :
    last key xs k = last key ys k := by
  unfold last
  rw [h.2 k]

end Registry

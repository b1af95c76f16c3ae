import Mathlib.Data.List.Nodup
import Mathlib.Order.Lattice

/-!
# Ordered maps

A `BTreeMap` as the list of its entries in strictly increasing key order. The
order is a field, so that iteration order, predecessor lookup and the
uniqueness of keys are facts about every map and not hypotheses.
-/

namespace Rust

@[ext]
structure BTreeMap (κ ν : Type) [LinearOrder κ] where
  entries : List (κ × ν)
  sorted : entries.Pairwise fun a b => a.1 < b.1

namespace BTreeMap
variable {κ ν β : Type} [LinearOrder κ]

def empty : BTreeMap κ ν := ⟨[], List.Pairwise.nil⟩

def get? (m : BTreeMap κ ν) (k : κ) : Option ν :=
  (m.entries.find? fun e => e.1 = k).map Prod.snd

/-- `range(..=k).next_back()`: the entry with the greatest key at or below `k`. -/
def lastLE (m : BTreeMap κ ν) (k : κ) : Option (κ × ν) :=
  (m.entries.filter fun e => e.1 ≤ k).getLast?

/-- One pass over the entries, replacing the value of an equal key. -/
def insertEntry (k : κ) (v : ν) : List (κ × ν) → List (κ × ν)
  | [] => [(k, v)]
  | e :: es =>
    if k < e.1 then (k, v) :: e :: es
    else if k = e.1 then (k, v) :: es
    else e :: insertEntry k v es

theorem mem_insertEntry (k : κ) (v : ν) (l : List (κ × ν))
    (h : l.Pairwise fun a b => a.1 < b.1) (e : κ × ν) :
    e ∈ insertEntry k v l ↔ e = (k, v) ∨ (e ∈ l ∧ e.1 ≠ k) := by
  induction l with
  | nil => simp [insertEntry]
  | cons x xs ih =>
    have hx := List.pairwise_cons.mp h
    unfold insertEntry
    split_ifs with hlt heq
    · have hall : ∀ y ∈ x :: xs, y.1 ≠ k := by
        intro y hy
        rcases List.mem_cons.mp hy with rfl | hy
        · exact ne_of_gt hlt
        · exact ne_of_gt (hlt.trans (hx.1 y hy))
      rw [List.mem_cons]
      exact or_congr_right ⟨fun he => ⟨he, hall e he⟩, And.left⟩
    · subst heq
      have hall : ∀ y ∈ xs, y.1 ≠ x.1 := fun y hy => ne_of_gt (hx.1 y hy)
      rw [List.mem_cons, List.mem_cons]
      constructor
      · rintro (he | he)
        · exact Or.inl he
        · exact Or.inr ⟨Or.inr he, hall e he⟩
      · rintro (he | ⟨rfl | he, hne⟩)
        · exact Or.inl he
        · exact absurd rfl hne
        · exact Or.inr he
    · rw [List.mem_cons, List.mem_cons, ih hx.2]
      have hxk : x.1 ≠ k := Ne.symm heq
      constructor
      · rintro (rfl | he | ⟨he, hne⟩)
        · exact Or.inr ⟨Or.inl rfl, hxk⟩
        · exact Or.inl he
        · exact Or.inr ⟨Or.inr he, hne⟩
      · rintro (he | ⟨he | he, hne⟩)
        · exact Or.inr (Or.inl he)
        · exact Or.inl he
        · exact Or.inr (Or.inr ⟨he, hne⟩)

theorem insertEntry_sorted (k : κ) (v : ν) (l : List (κ × ν))
    (h : l.Pairwise fun a b => a.1 < b.1) :
    (insertEntry k v l).Pairwise fun a b => a.1 < b.1 := by
  induction l with
  | nil => exact List.pairwise_singleton _ _
  | cons x xs ih =>
    have hx := List.pairwise_cons.mp h
    unfold insertEntry
    split_ifs with hlt heq
    · refine List.pairwise_cons.mpr ⟨?_, h⟩
      intro e he
      rcases List.mem_cons.mp he with rfl | he
      · exact hlt
      · exact hlt.trans (hx.1 e he)
    · refine List.pairwise_cons.mpr ⟨?_, hx.2⟩
      intro e he
      exact heq ▸ hx.1 e he
    · refine List.pairwise_cons.mpr ⟨?_, ih hx.2⟩
      intro e he
      rcases (mem_insertEntry k v xs hx.2 e).mp he with rfl | ⟨he, -⟩
      · exact lt_of_le_of_ne (not_lt.mp hlt) (Ne.symm heq)
      · exact hx.1 e he

/- A new value under an old key changes nothing that does not look at the value. -/
theorem map_insertEntry {γ : Type} (g : κ × ν → γ) {k : κ} {v w : ν} {l : List (κ × ν)}
    (h : l.Pairwise fun a b => a.1 < b.1) (hk : (k, w) ∈ l) (hg : g (k, v) = g (k, w)) :
    (insertEntry k v l).map g = l.map g := by
  induction l with
  | nil => cases hk
  | cons x xs ih =>
    have hx := List.pairwise_cons.mp h
    unfold insertEntry
    split_ifs with hlt heq
    · rcases List.mem_cons.mp hk with rfl | hk
      · exact absurd hlt (lt_irrefl _)
      · exact absurd (hlt.trans (hx.1 _ hk)) (lt_irrefl _)
    · rcases List.mem_cons.mp hk with rfl | hk
      · rw [List.map_cons, List.map_cons, hg]
      · exact absurd heq (ne_of_gt (hx.1 _ hk))
    · rcases List.mem_cons.mp hk with rfl | hk
      · exact absurd rfl heq
      · rw [List.map_cons, List.map_cons, ih hx.2 hk]

def insert (m : BTreeMap κ ν) (k : κ) (v : ν) : BTreeMap κ ν :=
  ⟨insertEntry k v m.entries, insertEntry_sorted k v m.entries m.sorted⟩

/-! ### Lookup -/

theorem key_unique (m : BTreeMap κ ν) {d e : κ × ν} (hd : d ∈ m.entries) (he : e ∈ m.entries)
    (h : d.1 = e.1) : d = e := by
  have hnodup : (m.entries.map Prod.fst).Nodup :=
    List.pairwise_map.mpr (m.sorted.imp fun hlt => ne_of_lt hlt)
  exact List.inj_on_of_nodup_map hnodup hd he h

theorem get?_eq_some (m : BTreeMap κ ν) (k : κ) (v : ν) :
    m.get? k = some v ↔ (k, v) ∈ m.entries := by
  unfold get?
  constructor
  · intro h
    obtain ⟨e, hfind, rfl⟩ := Option.map_eq_some_iff.mp h
    have hk : e.1 = k := by simpa using List.find?_some hfind
    exact hk ▸ List.mem_of_find?_eq_some hfind
  · intro h
    cases hfind : m.entries.find? (fun e => e.1 = k) with
    | none => simpa using List.find?_eq_none.mp hfind (k, v) h
    | some e =>
      have hk : e.1 = k := by simpa using List.find?_some hfind
      rw [m.key_unique (List.mem_of_find?_eq_some hfind) h hk]
      rfl

theorem get?_insert (m : BTreeMap κ ν) (k j : κ) (v : ν) :
    (m.insert k v).get? j = if j = k then some v else m.get? j := by
  apply Option.ext
  intro w
  have hmem := mem_insertEntry k v m.entries m.sorted (j, w)
  rw [get?_eq_some]
  split_ifs with hj
  · subst hj
    simp only [Prod.mk.injEq, true_and, ne_eq, not_true_eq_false, and_false, or_false] at hmem
    exact hmem.trans ⟨fun h => h ▸ rfl, fun h => (Option.some.inj h).symm⟩
  · rw [get?_eq_some]
    simp only [Prod.mk.injEq, hj, false_and, false_or, ne_eq, not_false_eq_true, and_true] at hmem
    exact hmem

theorem mem_insert (m : BTreeMap κ ν) (k : κ) (v : ν) (e : κ × ν) :
    e ∈ (m.insert k v).entries ↔ e = (k, v) ∨ (e ∈ m.entries ∧ e.1 ≠ k) :=
  mem_insertEntry k v m.entries m.sorted e

theorem map_insert {γ : Type} (m : BTreeMap κ ν) (g : κ × ν → γ) {k : κ} {v w : ν}
    (hk : (k, w) ∈ m.entries) (hg : g (k, v) = g (k, w)) :
    (m.insert k v).entries.map g = m.entries.map g :=
  map_insertEntry g m.sorted hk hg

theorem insert_self (m : BTreeMap κ ν) {k : κ} {v : ν} (hk : (k, v) ∈ m.entries) :
    m.insert k v = m := by
  have h := m.map_insert id hk rfl
  rw [List.map_id, List.map_id] at h
  exact BTreeMap.ext h

theorem lastLE_eq_some (m : BTreeMap κ ν) (k : κ) (e : κ × ν) :
    m.lastLE k = some e ↔ e ∈ m.entries ∧ e.1 ≤ k ∧ ∀ x ∈ m.entries, x.1 ≤ k → x.1 ≤ e.1 := by
  have hsorted : (m.entries.filter fun e => e.1 ≤ k).Pairwise fun a b => a.1 < b.1 :=
    m.sorted.filter _
  have hmem : ∀ x, x ∈ m.entries.filter (fun e => e.1 ≤ k) ↔ x ∈ m.entries ∧ x.1 ≤ k := by
    intro x
    simp
  unfold lastLE
  constructor
  · intro h
    obtain ⟨ys, hys⟩ := List.getLast?_eq_some_iff.mp h
    rw [hys] at hsorted
    have he := (hmem e).mp (hys ▸ by simp)
    refine ⟨he.1, he.2, ?_⟩
    intro x hx hxk
    have hxy : x ∈ ys ++ [e] := hys ▸ (hmem x).mpr ⟨hx, hxk⟩
    rcases List.mem_append.mp hxy with hxy | hxy
    · exact ((List.pairwise_append.mp hsorted).2.2 x hxy e (by simp)).le
    · rw [List.mem_singleton.mp hxy]
  · intro h
    obtain ⟨he, hek, hmax⟩ := h
    cases hlast : (m.entries.filter fun e => e.1 ≤ k).getLast? with
    | none =>
      have hnil := List.getLast?_eq_none_iff.mp hlast
      have hin := (hmem e).mpr ⟨he, hek⟩
      rw [hnil] at hin
      cases hin
    | some d =>
      obtain ⟨ys, hys⟩ := List.getLast?_eq_some_iff.mp hlast
      rw [hys] at hsorted
      have hd := (hmem d).mp (hys ▸ by simp)
      have hed : e ∈ ys ++ [d] := hys ▸ (hmem e).mpr ⟨he, hek⟩
      rcases List.mem_append.mp hed with hed | hed
      · have hlt := (List.pairwise_append.mp hsorted).2.2 e hed d (by simp)
        exact absurd hlt (not_lt.mpr (hmax d hd.1 hd.2))
      · rw [List.mem_singleton.mp hed]

theorem flatMap_two_keys (m : BTreeMap κ (List β)) {i j : κ} (hij : i < j) :
    (m.entries.flatMap fun e => if e.1 = i ∨ e.1 = j then e.2 else []) =
      (m.get? i).getD [] ++ (m.get? j).getD [] := by
  obtain ⟨l, hl⟩ := m
  unfold get?
  induction l with
  | nil => rfl
  | cons x xs ih =>
    have hx := List.pairwise_cons.mp hl
    have htail := ih hx.2
    simp only at htail ⊢
    rw [List.flatMap_cons, htail]
    have habsent : ∀ k, k ≤ x.1 → xs.find? (fun e => e.1 = k) = none := by
      intro k hk
      refine List.find?_eq_none.mpr fun e he => ?_
      simpa using ne_of_gt (lt_of_le_of_lt hk (hx.1 e he))
    by_cases hxi : x.1 = i
    · simp [hxi, habsent i (le_of_eq hxi.symm), ne_of_lt hij]
    · by_cases hxj : x.1 = j
      · have hi : xs.find? (fun e => e.1 = i) = none := habsent i (hxj ▸ hij.le)
        simp [hxj, ne_of_gt hij, hi, habsent j (le_of_eq hxj.symm)]
      · simp [hxi, hxj]

end BTreeMap
end Rust

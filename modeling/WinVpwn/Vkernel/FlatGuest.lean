import WinVpwn.Lib.FlatMemory
import WinVpwn.Vkernel.Mem

/-!
# `InMemGuest` as a flat byte memory

Where no region runs into the next one the lookup by nearest base finds the region
of every mapped address, and the chunked loops amount to one pass over a flat
memory: a read is the bytes of a covered range or stops at its first gap, and a
write replaces a covered range.
-/

namespace WinVpwn.Vkernel
open Rust Lib

namespace InMemGuest

/-- A region that starts below another one ends before it. -/
def Separated (m : InMemGuest) : Prop :=
  ∀ d ∈ m.bytes.entries, ∀ e ∈ m.bytes.entries, d.1 < e.1 →
    d.1.toNat + d.2.length ≤ e.1.toNat

/-- No two regions share an address. -/
def Apart (m : InMemGuest) : Prop :=
  ∀ d ∈ m.bytes.entries, ∀ e ∈ m.bytes.entries, d ≠ e →
    Disjoint (span d.1.toNat d.2.length) (span e.1.toNat e.2.length)

structure Wf (m : InMemGuest) : Prop where
  apart : m.Apart
  nonempty : ∀ e ∈ m.bytes.entries, 0 < e.2.length
  below : ∀ e ∈ m.bytes.entries, e.1.toNat + e.2.length < 2 ^ 64

theorem wf_new : new.Wf := ⟨nofun, nofun, nofun⟩

theorem Wf.separated {m : InMemGuest} (hm : m.Wf) : m.Separated := by
  intro d hd e he hlt
  have hne : d ≠ e := fun h => absurd (h ▸ hlt) (lt_irrefl _)
  have hlt' : d.1.toNat < e.1.toNat := hlt
  have hpos := hm.nonempty d hd
  have hpos' := hm.nonempty e he
  have hdisj := disjoint_span_iff.mp (hm.apart d hd e he hne)
  omega

/-- What every address holds. -/
def contents (m : InMemGuest) : FlatMemory U8 := fun a =>
  (m.bytes.entries.find? fun e => a ∈ span e.1.toNat e.2.length).bind fun e => e.2[a - e.1.toNat]?

/-! ### The region of an address -/

section Regions
variable {m : InMemGuest} (hm : m.Separated)
include hm

theorem entry_unique {d e : U64 × List U8} (hd : d ∈ m.bytes.entries) (he : e ∈ m.bytes.entries)
    {a : ℕ} (had : a ∈ span d.1.toNat d.2.length) (hae : a ∈ span e.1.toNat e.2.length) : d = e := by
  rw [mem_span] at had hae
  rcases lt_trichotomy d.1 e.1 with hlt | heq | hgt
  · have hend := hm d hd e he hlt
    omega
  · exact m.bytes.key_unique hd he heq
  · have hend := hm e he d hd hgt
    omega

theorem region_eq_some_iff (addr : U64) (e : U64 × List U8) :
    m.region addr = some e ↔ e ∈ m.bytes.entries ∧ addr.toNat ∈ span e.1.toNat e.2.length := by
  constructor
  · intro h
    obtain ⟨hmem, hle, hreach⟩ := region_eq_some m addr e.1 e.2 h
    exact ⟨hmem, by rw [mem_span]; omega⟩
  · intro h
    obtain ⟨hmem, hin⟩ := h
    rw [mem_span] at hin
    have hle : e.1 ≤ addr := hin.1
    have hlast : m.bytes.lastLE addr = some e := by
      rw [BTreeMap.lastLE_eq_some]
      refine ⟨hmem, hle, fun x hx hxaddr => ?_⟩
      by_contra hlt
      have hend := hm e hmem x hx (not_le.mp hlt)
      have hxaddr' : x.1.toNat ≤ addr.toNat := hxaddr
      omega
    rw [region, hlast, Option.filter_some, if_pos]
    rw [decide_eq_true_eq, toNat_sub_of_le addr e.1 hin.1]
    omega

theorem region_eq_none_iff (addr : U64) :
    m.region addr = none ↔ ∀ e ∈ m.bytes.entries, addr.toNat ∉ span e.1.toNat e.2.length := by
  rw [Option.eq_none_iff_forall_not_mem]
  constructor
  · intro h e he hin
    exact h e ((region_eq_some_iff hm addr e).mpr ⟨he, hin⟩)
  · intro h e he
    obtain ⟨hmem, hin⟩ := (region_eq_some_iff hm addr e).mp he
    exact h e hmem hin

theorem contents_of_mem {e : U64 × List U8} (he : e ∈ m.bytes.entries) {a : ℕ}
    (ha : a ∈ span e.1.toNat e.2.length) : m.contents a = e.2[a - e.1.toNat]? := by
  unfold contents
  cases hfind : m.bytes.entries.find? (fun e => a ∈ span e.1.toNat e.2.length) with
  | none => simpa [ha] using List.find?_eq_none.mp hfind e he
  | some d =>
    have had : a ∈ span d.1.toNat d.2.length := by simpa using List.find?_some hfind
    rw [entry_unique hm (List.mem_of_find?_eq_some hfind) he had ha]
    rfl

theorem contents_region {addr : U64} {e : U64 × List U8} (h : m.region addr = some e) :
    m.contents.Holds e.1.toNat e.2 := by
  obtain ⟨hmem, -⟩ := (region_eq_some_iff hm addr e).mp h
  intro i hi
  rw [contents_of_mem hm hmem (by rw [mem_span]; omega), Nat.add_sub_cancel_left]

theorem covers_region {addr : U64} {e : U64 × List U8} (h : m.region addr = some e) {n : ℕ}
    (hn : n ≤ e.2.length - (addr.toNat - e.1.toNat)) : m.contents.Covers addr.toNat n := by
  obtain ⟨hmem, hin⟩ := (region_eq_some_iff hm addr e).mp h
  intro x hx
  rw [mem_span] at hx hin
  rw [contents_of_mem hm hmem (by rw [mem_span]; omega)]
  simp only [ne_eq, List.getElem?_eq_none_iff]
  omega

end Regions

theorem contents_of_not_mem {m : InMemGuest} {a : ℕ}
    (h : ∀ e ∈ m.bytes.entries, a ∉ span e.1.toNat e.2.length) : m.contents a = none := by
  unfold contents
  rw [List.find?_eq_none.mpr]
  · rfl
  · intro e he
    simpa using h e he

theorem contents_ne_none_iff {m : InMemGuest} (hm : m.Separated) (a : ℕ) :
    m.contents a ≠ none ↔ ∃ e ∈ m.bytes.entries, a ∈ span e.1.toNat e.2.length := by
  constructor
  · intro h
    by_contra hout
    push Not at hout
    exact h (contents_of_not_mem hout)
  · intro h
    obtain ⟨e, he, ha⟩ := h
    rw [contents_of_mem hm he ha]
    rw [mem_span] at ha
    simp only [ne_eq, List.getElem?_eq_none_iff]
    omega

theorem contents_congr {m m' : InMemGuest} (hm : m.Separated) (hm' : m'.Separated) {a : ℕ}
    (h : ∀ e : U64 × List U8, a ∈ span e.1.toNat e.2.length →
      (e ∈ m'.bytes.entries ↔ e ∈ m.bytes.entries)) : m'.contents a = m.contents a := by
  by_cases hheld : ∃ e ∈ m.bytes.entries, a ∈ span e.1.toNat e.2.length
  · obtain ⟨e, he, hae⟩ := hheld
    rw [contents_of_mem hm he hae, contents_of_mem hm' ((h e hae).mpr he) hae]
  · push Not at hheld
    rw [contents_of_not_mem hheld, contents_of_not_mem]
    intro e he hae
    exact hheld e ((h e hae).mp he) hae

theorem below_of_covers {m : InMemGuest} (hm : m.Wf) {a n : ℕ} (ha : a < 2 ^ 64)
    (hcov : m.contents.Covers a n) : a + n < 2 ^ 64 := by
  by_contra htop
  have hlast : (2 ^ 64 - 1 : ℕ) ∈ span a n := by
    rw [mem_span]
    omega
  obtain ⟨e, he, hin⟩ := (contents_ne_none_iff hm.separated _).mp (hcov _ hlast)
  have hbelow := hm.below e he
  rw [mem_span] at hin
  omega

theorem apart_insert {m : InMemGuest} (hm : m.Apart) {base : U64} {bytes : List U8}
    (hclear : ∀ e ∈ m.bytes.entries,
      Disjoint (span e.1.toNat e.2.length) (span base.toNat bytes.length)) :
    (InMemGuest.mk (m.bytes.insert base bytes)).Apart := by
  intro d hd e he hne
  rcases (BTreeMap.mem_insert ..).mp hd with rfl | ⟨hd, -⟩ <;>
    rcases (BTreeMap.mem_insert ..).mp he with rfl | ⟨he, -⟩
  · exact absurd rfl hne
  · exact (hclear e he).symm
  · exact hclear d hd
  · exact hm d hd e he hne

theorem contents_add {m m' : InMemGuest} (hm : m.Separated) (hm' : m'.Separated) {base : U64}
    {len : ℕ} (hmem : ∀ e, e ∈ m'.bytes.entries ↔
      e = (base, List.replicate len 0) ∨ e ∈ m.bytes.entries) :
    m'.contents = m.contents.fill base.toNat len 0 := by
  funext a
  unfold FlatMemory.fill
  by_cases hnew : a ∈ span base.toNat len
  · have hspan : a ∈ span base.toNat (List.replicate len (0 : U8)).length := by
      rwa [List.length_replicate]
    rw [if_pos hnew, contents_of_mem hm' ((hmem _).mpr (Or.inl rfl)) hspan]
    rw [mem_span] at hnew
    have hi : a - base.toNat < len := by omega
    exact List.getElem?_replicate_of_lt hi
  · rw [if_neg hnew]
    apply contents_congr hm hm'
    intro e hae
    rw [hmem, or_iff_right]
    intro heq
    rw [heq, List.length_replicate] at hae
    exact hnew hae

/-! ### Reading -/

theorem readLoop_pass (b : Build) {m : InMemGuest} (hm : m.Wf) (len fuel : ℕ) (cursor : U64)
    {out : List U8} (hmore : out.length < len) {e : U64 × List U8} (hr : m.region cursor = some e) :
    ∃ chunk : List U8, 0 < chunk.length ∧ (out ++ chunk).length ≤ len ∧
      m.contents.Holds cursor.toNat chunk ∧
      (cursor + BitVec.ofNat 64 chunk.length).toNat = cursor.toNat + chunk.length ∧
      readLoop b m len (fuel + 1) cursor out =
        readLoop b m len fuel (cursor + BitVec.ofNat 64 chunk.length) (out ++ chunk) := by
  obtain ⟨hmem, hle, hreach⟩ := region_eq_some m cursor e.1 e.2 hr
  have hbelow := hm.below e hmem
  obtain ⟨chunk, hchunk, hlen, hstep⟩ := readLoop_step b m len fuel cursor e.1 out e.2 hmore hr
  have hfit : cursor.toNat + chunk.length < 2 ^ 64 := by omega
  have hheld := (contents_region hm.separated hr).slice (cursor.toNat - e.1.toNat) (len - out.length)
  rw [Nat.add_sub_cancel' hle, ← hchunk] at hheld
  have hout : (out ++ chunk).length ≤ len := by
    rw [List.length_append]
    omega
  refine ⟨chunk, by omega, hout, hheld, toNat_add_ofNat_of_lt cursor chunk.length hfit, ?_⟩
  rw [hstep, b.add_ofNat_eq _ _ hfit, Outcome.ok_bind]

theorem readLoop_exact (b : Build) {m : InMemGuest} (hm : m.Wf) (len fuel : ℕ) (cursor : U64)
    (out : List U8) (hout : out.length ≤ len) (hfuel : len - out.length ≤ fuel) :
    (∃ bs, readLoop b m len fuel cursor out = .ok (out ++ bs) ∧ bs.length = len - out.length ∧
      m.contents.Holds cursor.toNat bs) ∨
    ∃ g : U64, readLoop b m len fuel cursor out =
        .err ⟨g, cursor.toNat + (len - out.length) - g.toNat⟩ ∧
      m.contents.FirstGap cursor.toNat (len - out.length) g.toNat := by
  induction fuel generalizing cursor out with
  | zero =>
    refine Or.inl ⟨[], ?_, (Nat.le_zero.mp hfuel).symm, FlatMemory.holds_nil _⟩
    rw [readLoop_done b m len 0 cursor out (by omega), List.append_nil]
  | succ fuel ih =>
    by_cases hmore : out.length < len
    swap
    · refine Or.inl ⟨[], ?_, (Nat.sub_eq_zero_of_le (not_lt.mp hmore)).symm, FlatMemory.holds_nil _⟩
      rw [readLoop_done b m len (fuel + 1) cursor out hmore, List.append_nil]
    cases hr : m.region cursor with
    | none =>
      have hgap := contents_of_not_mem ((region_eq_none_iff hm.separated cursor).mp hr)
      refine Or.inr ⟨cursor, ?_, FlatMemory.firstGap_here (by omega) hgap⟩
      rw [readLoop, if_pos hmore, Nat.add_sub_cancel_left]
      simp only [hr]
    | some e =>
      obtain ⟨chunk, hpos, hfit, hheld, hnext, hstep⟩ := readLoop_pass b hm len fuel cursor hmore hr
      rw [hstep]
      have hout' : (out ++ chunk).length = out.length + chunk.length := List.length_append ..
      have hneed : len - out.length = chunk.length + (len - (out ++ chunk).length) := by omega
      rcases ih (cursor + BitVec.ofNat 64 chunk.length) (out ++ chunk) (by omega) (by omega) with
        ⟨bs, hrun, hbs, hheld'⟩ | ⟨g, hrun, hgap⟩
      · refine Or.inl ⟨chunk ++ bs, ?_, ?_, ?_⟩
        · rw [hrun, List.append_assoc]
        · rw [List.length_append]
          omega
        · rw [FlatMemory.holds_append]
          exact ⟨hheld, hnext ▸ hheld'⟩
      · rw [hnext] at hrun hgap
        refine Or.inr ⟨g, ?_, ?_⟩
        · rw [hrun, hneed, Nat.add_assoc]
        · rw [hneed]
          exact hgap.after hheld.covers

theorem read_exact (b : Build) {m : InMemGuest} (hm : m.Wf) (addr : U64) {len : ℕ}
    (hlen : len ≤ isizeMax) :
    (∃ bs, read b m addr len = .ok bs ∧ bs.length = len ∧ m.contents.Holds addr.toNat bs) ∨
    ∃ g : U64, read b m addr len = .err ⟨g, addr.toNat + len - g.toNat⟩ ∧
      m.contents.FirstGap addr.toNat len g.toNat := by
  unfold read
  rw [reserve_eq len hlen, Outcome.ok_bind]
  exact readLoop_exact b hm len len addr [] (Nat.zero_le _) (Nat.sub_le _ _)

theorem read_ok_iff (b : Build) {m : InMemGuest} (hm : m.Wf) (addr : U64) {len : ℕ}
    (hlen : len ≤ isizeMax) (bs : List U8) :
    read b m addr len = .ok bs ↔ bs.length = len ∧ m.contents.Holds addr.toNat bs := by
  rcases read_exact b hm addr hlen with ⟨cs, hrun, hcs, hheld⟩ | ⟨g, hrun, hgap⟩
  · rw [hrun, Outcome.ok.injEq]
    constructor
    · intro h
      subst h
      exact ⟨hcs, hheld⟩
    · intro h
      exact hheld.unique h.2 (hcs.trans h.1.symm)
  · rw [hrun]
    constructor
    · intro h
      cases h
    · intro h
      exact absurd (h.1 ▸ h.2.covers) hgap.not_covers

/-! ### Writing -/

/-- The region bases with the lengths of their regions. -/
def layout (m : InMemGuest) : List (U64 × ℕ) := m.bytes.entries.map fun e => (e.1, e.2.length)

theorem layout_insert {m : InMemGuest} {base : U64} {bytes bytes' : List U8}
    (hmem : (base, bytes) ∈ m.bytes.entries) (hlen : bytes'.length = bytes.length) :
    (InMemGuest.mk (m.bytes.insert base bytes')).layout = m.layout :=
  m.bytes.map_insert _ hmem (by rw [hlen])

theorem entry_of_layout {m m' : InMemGuest} (h : m'.layout = m.layout) {e' : U64 × List U8}
    (he' : e' ∈ m'.bytes.entries) :
    ∃ e ∈ m.bytes.entries, e.1 = e'.1 ∧ e.2.length = e'.2.length := by
  have hin : (e'.1, e'.2.length) ∈ m'.layout := List.mem_map.mpr ⟨e', he', rfl⟩
  rw [h] at hin
  obtain ⟨e, he, heq⟩ := List.mem_map.mp hin
  rw [Prod.mk.injEq] at heq
  exact ⟨e, he, heq⟩

theorem Separated.of_layout {m m' : InMemGuest} (hm : m.Separated) (h : m'.layout = m.layout) :
    m'.Separated := by
  intro d' hd' e' he' hlt
  obtain ⟨d, hd, hdk, hdn⟩ := entry_of_layout h hd'
  obtain ⟨e, he, hek, -⟩ := entry_of_layout h he'
  rw [← hdk, ← hdn, ← hek]
  exact hm d hd e he (by rw [hdk, hek]; exact hlt)

theorem Apart.of_layout {m m' : InMemGuest} (hm : m.Apart) (h : m'.layout = m.layout) :
    m'.Apart := by
  intro d' hd' e' he' hne
  obtain ⟨d, hd, hdk, hdn⟩ := entry_of_layout h hd'
  obtain ⟨e, he, hek, hen⟩ := entry_of_layout h he'
  rw [← hdk, ← hdn, ← hek, ← hen]
  apply hm d hd e he
  intro heq
  exact hne (m'.bytes.key_unique hd' he' (by rw [← hdk, heq, hek]))

theorem Wf.of_layout {m m' : InMemGuest} (hm : m.Wf) (h : m'.layout = m.layout) : m'.Wf := by
  refine ⟨hm.apart.of_layout h, ?_, ?_⟩
  · intro e' he'
    obtain ⟨e, he, -, hen⟩ := entry_of_layout h he'
    rw [← hen]
    exact hm.nonempty e he
  · intro e' he'
    obtain ⟨e, he, hek, hen⟩ := entry_of_layout h he'
    rw [← hek, ← hen]
    exact hm.below e he

theorem contents_patch {m : InMemGuest} (hm : m.Separated) {base : U64} {bytes : List U8}
    (hmem : (base, bytes) ∈ m.bytes.entries) {off : ℕ} {chunk : List U8}
    (hfit : off + chunk.length ≤ bytes.length) :
    (InMemGuest.mk (m.bytes.insert base (patch bytes off chunk))).contents =
      m.contents.write (base.toNat + off) chunk := by
  have hlen := length_patch hfit
  have hm' := hm.of_layout (layout_insert hmem hlen)
  have hnew : (base, patch bytes off chunk) ∈ (m.bytes.insert base (patch bytes off chunk)).entries :=
    (BTreeMap.mem_insert ..).mpr (Or.inl rfl)
  funext a
  unfold FlatMemory.write
  by_cases ha : a ∈ span base.toNat bytes.length
  · have ha' : a ∈ span base.toNat (patch bytes off chunk).length := by rwa [hlen]
    rw [contents_of_mem hm' hnew ha', getElem?_patch hfit, contents_of_mem hm hmem ha]
    rw [mem_span] at ha
    simp only [mem_span]
    by_cases hin : off ≤ a - base.toNat ∧ a - base.toNat < off + chunk.length
    · rw [if_pos hin, if_pos (by omega)]
      congr 1
      omega
    · rw [if_neg hin, if_neg (by omega)]
  · have hout : a ∉ span (base.toNat + off) chunk.length := by
      rw [mem_span] at ha ⊢
      omega
    rw [if_neg hout]
    apply contents_congr hm hm'
    intro e hae
    rw [BTreeMap.mem_insert]
    constructor
    · intro h
      rcases h with rfl | ⟨he, -⟩
      · exact absurd (hlen ▸ hae) ha
      · exact he
    · intro he
      refine Or.inr ⟨he, fun heq => ?_⟩
      rw [m.bytes.key_unique he hmem heq] at hae
      exact ha hae

theorem writeLoop_step (b : Build) (data : List U8) (fuel : ℕ) (cursor : U64) {idx : ℕ}
    (hidx : idx < data.length) {m : InMemGuest} {base : U64} {bytes : List U8}
    (hr : m.region cursor = some (base, bytes)) :
    ∃ chunk : List U8,
      chunk.length = min (data.length - idx) (bytes.length - (cursor.toNat - base.toNat)) ∧
      data.drop idx = chunk ++ data.drop (idx + chunk.length) ∧
      writeLoop b data (fuel + 1) cursor idx m =
        (Act.lift (b.add cursor (BitVec.ofNat 64 chunk.length)) >>= fun cursor =>
          writeLoop b data fuel cursor (idx + chunk.length))
          ⟨m.bytes.insert base (patch bytes (cursor.toNat - base.toNat) chunk)⟩ := by
  obtain ⟨-, hle, hreach⟩ := region_eq_some m cursor base bytes hr
  have hlen : ((data.drop idx).take
      (min (data.length - idx) (bytes.length - (cursor.toNat - base.toNat)))).length =
      min (data.length - idx) (bytes.length - (cursor.toNat - base.toNat)) := by
    rw [List.length_take, List.length_drop]
    omega
  refine ⟨_, hlen, ?_, ?_⟩
  · rw [hlen, ← List.drop_drop, List.take_append_drop]
  · rw [writeLoop, if_pos hidx]
    simp only [Act.bind_apply, Act.get_apply, hr, toNat_sub_of_le cursor base hle, Act.lift_apply]
    rw [slice_eq _ _ _ (by omega) (by omega), Nat.add_sub_cancel_left]
    simp only [hlen]
    rw [copyInto_eq _ _ _ (by omega)]
    rfl

theorem writeLoop_done (b : Build) (data : List U8) (fuel : ℕ) (cursor : U64) {idx : ℕ}
    (hdone : ¬idx < data.length) (m : InMemGuest) :
    writeLoop b data fuel cursor idx m = (.ok (), m) := by
  cases fuel with
  | zero =>
    rw [writeLoop, if_neg hdone]
    rfl
  | succ fuel =>
    rw [writeLoop, if_neg hdone]
    rfl

theorem writeLoop_none (b : Build) (data : List U8) (fuel : ℕ) (cursor : U64) {idx : ℕ}
    (hidx : idx < data.length) {m : InMemGuest} (hr : m.region cursor = none) :
    writeLoop b data (fuel + 1) cursor idx m = (.err ⟨cursor, data.length - idx⟩, m) := by
  rw [writeLoop, if_pos hidx]
  simp only [Act.bind_apply, Act.get_apply, hr, Act.lift_apply]

theorem writeLoop_pass (b : Build) (data : List U8) (fuel : ℕ) (cursor : U64) {idx : ℕ}
    (hidx : idx < data.length) {m : InMemGuest} (hm : m.Wf) {e : U64 × List U8}
    (hr : m.region cursor = some e) :
    ∃ (chunk : List U8) (m₁ : InMemGuest), 0 < chunk.length ∧ idx + chunk.length ≤ data.length ∧
      data.drop idx = chunk ++ data.drop (idx + chunk.length) ∧ m₁.layout = m.layout ∧
      m.contents.Covers cursor.toNat chunk.length ∧
      m₁.contents = m.contents.write cursor.toNat chunk ∧
      (cursor + BitVec.ofNat 64 chunk.length).toNat = cursor.toNat + chunk.length ∧
      writeLoop b data (fuel + 1) cursor idx m =
        writeLoop b data fuel (cursor + BitVec.ofNat 64 chunk.length) (idx + chunk.length) m₁ := by
  obtain ⟨hmem, hle, hreach⟩ := region_eq_some m cursor e.1 e.2 hr
  have hbelow := hm.below e hmem
  obtain ⟨chunk, hlen, hdata, hstep⟩ := writeLoop_step b data fuel cursor hidx hr
  have hfit : cursor.toNat - e.1.toNat + chunk.length ≤ e.2.length := by omega
  have hsum : cursor.toNat + chunk.length < 2 ^ 64 := by omega
  have hcont := contents_patch hm.separated hmem hfit
  rw [Nat.add_sub_cancel' hle] at hcont
  have hcovered : m.contents.Covers cursor.toNat chunk.length :=
    covers_region hm.separated hr (hlen.trans_le (Nat.min_le_right ..))
  refine ⟨chunk, _, by omega, by omega, hdata, layout_insert hmem (length_patch hfit), hcovered, hcont,
    toNat_add_ofNat_of_lt cursor chunk.length hsum, ?_⟩
  rw [hstep]
  exact Act.bind_of_ok (by rw [Act.lift_apply, b.add_ofNat_eq _ _ hsum])

theorem writeLoop_exact (b : Build) (data : List U8) (fuel : ℕ) (cursor : U64) {idx : ℕ}
    (hidx : idx ≤ data.length) (hfuel : data.length - idx ≤ fuel) {m : InMemGuest} (hm : m.Wf) :
    (m.contents.Covers cursor.toNat (data.length - idx) ∧
      ∃ m', writeLoop b data fuel cursor idx m = (.ok (), m') ∧ m'.layout = m.layout ∧
        m'.contents = m.contents.write cursor.toNat (data.drop idx)) ∨
    (¬m.contents.Covers cursor.toNat (data.length - idx) ∧
      ∃ e m', writeLoop b data fuel cursor idx m = (.err e, m')) := by
  induction fuel generalizing cursor idx m with
  | zero =>
    rw [Nat.le_zero.mp hfuel]
    refine Or.inl ⟨FlatMemory.covers_zero _, m, writeLoop_done b data 0 cursor (by omega) m, rfl, ?_⟩
    rw [List.drop_eq_nil_of_le (by omega), FlatMemory.write_nil]
  | succ fuel ih =>
    by_cases hmore : idx < data.length
    swap
    · rw [Nat.sub_eq_zero_of_le (not_lt.mp hmore)]
      refine Or.inl ⟨FlatMemory.covers_zero _, m, writeLoop_done b data _ cursor hmore m, rfl, ?_⟩
      rw [List.drop_eq_nil_of_le (not_lt.mp hmore), FlatMemory.write_nil]
    cases hr : m.region cursor with
    | none =>
      have hgap := contents_of_not_mem ((region_eq_none_iff hm.separated cursor).mp hr)
      refine Or.inr ⟨?_, _, _, writeLoop_none b data fuel cursor hmore hr⟩
      exact (FlatMemory.firstGap_here (by omega) hgap).not_covers
    | some e =>
      obtain ⟨chunk, m₁, hpos, hidx', hdata, hlay, hcovered, hcont, hnext, hstep⟩ :=
        writeLoop_pass b data fuel cursor hmore hm hr
      have hneed : data.length - idx = chunk.length + (data.length - (idx + chunk.length)) := by
        omega
      rw [hstep, hneed, FlatMemory.covers_add, ← hnext]
      rcases ih (cursor + BitVec.ofNat 64 chunk.length) hidx' (by omega) (hm.of_layout hlay) with
        ⟨hcov, m', hrun, hlay', hcont'⟩ | ⟨hbad, hrun⟩
      · rw [hcont, FlatMemory.covers_write hcovered] at hcov
        refine Or.inl ⟨⟨hcovered, hcov⟩, m', hrun, hlay'.trans hlay, ?_⟩
        rw [hcont', hcont, hdata, FlatMemory.write_append, hnext]
      · rw [hcont, FlatMemory.covers_write hcovered] at hbad
        exact Or.inr ⟨fun h => hbad h.2, hrun⟩

theorem write_exact (b : Build) {m : InMemGuest} (hm : m.Wf) (addr : U64) (data : List U8) :
    (m.contents.Covers addr.toNat data.length ∧
      ∃ m', write b addr data m = (.ok (), m') ∧ m'.layout = m.layout ∧
        m'.contents = m.contents.write addr.toNat data) ∨
    (¬m.contents.Covers addr.toNat data.length ∧ ∃ e m', write b addr data m = (.err e, m')) :=
  writeLoop_exact b data data.length addr (Nat.zero_le _) (Nat.sub_le _ _) hm

end InMemGuest
end WinVpwn.Vkernel

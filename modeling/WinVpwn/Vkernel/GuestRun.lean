import WinVpwn.Vkernel.FlatGuest

/-!
# `InMemGuest` after a history of calls

A history of `map_anon` and `write` calls says which addresses are mapped and
which byte was last written to each. Where the mapped ranges are apart, the guest
is that memory: reads, writes and errors are those of the flat one.
-/

namespace WinVpwn.Vkernel
open Rust Lib InMemGuest

inductive GuestOp where
  | mapAnon (base : U64) (len : ℕ) (prot : U32)
  | write (addr : U64) (data : List U8)
  deriving DecidableEq, Repr

namespace GuestOp

def run (b : Build) : GuestOp → Act InMemGuest GuestMemError Unit
  | .mapAnon base len prot => InMemGuest.mapAnon base len prot
  | .write addr data => InMemGuest.write b addr data

/-- The range a call maps. -/
def mapRange : GuestOp → Option (ℕ × ℕ)
  | .mapAnon base len _ => some (base.toNat, len)
  | .write _ _ => none

/-- The byte at `a` after a call that found `x` there. -/
def byteAfter (a : ℕ) (x : U8) : GuestOp → U8
  | .mapAnon _ _ _ => x
  | .write addr data => if a ∈ span addr.toNat data.length then data.getD (a - addr.toNat) 0 else x

/-- The call comes back: a mapping in any way, a write with `Ok`. -/
def Done (b : Build) (m : InMemGuest) : GuestOp → Prop
  | .mapAnon base len prot => (InMemGuest.mapAnon base len prot m).1.Returns
  | .write addr data => (InMemGuest.write b addr data m).1 = .ok ()

instance (b : Build) (m : InMemGuest) : ∀ op : GuestOp, Decidable (op.Done b m)
  | .mapAnon _ _ _ => inferInstanceAs (Decidable (Outcome.Returns _))
  | .write _ _ => inferInstanceAs (Decidable (_ = _))

end GuestOp

def guestAfter (b : Build) (ops : List GuestOp) : InMemGuest :=
  (Act.runAll (GuestOp.run b) ops InMemGuest.new).2

/-! ### The memory a history describes -/

def mapRanges (ops : List GuestOp) : List (ℕ × ℕ) := ops.filterMap GuestOp.mapRange

def Mapped (ops : List GuestOp) (a : ℕ) : Prop := ∃ r ∈ mapRanges ops, a ∈ span r.1 r.2

instance (ops : List GuestOp) (a : ℕ) : Decidable (Mapped ops a) :=
  inferInstanceAs (Decidable (∃ r ∈ mapRanges ops, _))

def lastWritten (ops : List GuestOp) (a : ℕ) : U8 := ops.foldl (GuestOp.byteAfter a) 0

/-- A mapped address holds the byte last written there, or 0. -/
def flat (ops : List GuestOp) : FlatMemory U8 := fun a =>
  if Mapped ops a then some (lastWritten ops a) else none

/-- The ranges that are mapped are apart from one another and not empty, and end
below the top. -/
structure MapsApart (ops : List GuestOp) : Prop where
  disjoint : (mapRanges ops).Pairwise fun r s => Disjoint (span r.1 r.2) (span s.1 s.2)
  nonempty : ∀ r ∈ mapRanges ops, 0 < r.2
  below : ∀ r ∈ mapRanges ops, r.1 + r.2 < 2 ^ 64

theorem mapRanges_map (ops : List GuestOp) (base : U64) (len : ℕ) (prot : U32) :
    mapRanges (ops ++ [.mapAnon base len prot]) = mapRanges ops ++ [(base.toNat, len)] := by
  simp [mapRanges, GuestOp.mapRange]

theorem mapRanges_write (ops : List GuestOp) (addr : U64) (data : List U8) :
    mapRanges (ops ++ [.write addr data]) = mapRanges ops := by
  simp [mapRanges, GuestOp.mapRange]

theorem lastWritten_snoc (ops : List GuestOp) (op : GuestOp) (a : ℕ) :
    lastWritten (ops ++ [op]) a = op.byteAfter a (lastWritten ops a) := by
  rw [lastWritten, List.foldl_append]
  rfl

theorem MapsApart.initial {ops pre : List GuestOp} (h : MapsApart ops) (hpre : pre <+: ops) :
    MapsApart pre := by
  have hsub : mapRanges pre <+: mapRanges ops := hpre.filterMap _
  exact ⟨h.disjoint.sublist hsub.sublist, fun r hr => h.nonempty r (hsub.subset hr),
    fun r hr => h.below r (hsub.subset hr)⟩

theorem flat_map (ops : List GuestOp) (base : U64) (len : ℕ) (prot : U32)
    (hzero : ∀ a, ¬Mapped ops a → lastWritten ops a = 0)
    (hapart : ∀ r ∈ mapRanges ops, Disjoint (span r.1 r.2) (span base.toNat len)) :
    flat (ops ++ [.mapAnon base len prot]) = (flat ops).fill base.toNat len 0 := by
  funext a
  have hmapped : Mapped (ops ++ [.mapAnon base len prot]) a ↔
      Mapped ops a ∨ a ∈ span base.toNat len := by
    unfold Mapped
    rw [mapRanges_map]
    simp [or_and_right, exists_or]
  have hlast : lastWritten (ops ++ [.mapAnon base len prot]) a = lastWritten ops a :=
    lastWritten_snoc ops _ a
  unfold flat FlatMemory.fill
  simp only [hmapped, hlast]
  by_cases hnew : a ∈ span base.toNat len
  · have hold : ¬Mapped ops a := by
      intro h
      obtain ⟨r, hr, har⟩ := h
      exact Set.disjoint_left.mp (hapart r hr) har hnew
    simp [hnew, hzero a hold]
  · simp [hnew]

theorem flat_write (ops : List GuestOp) (addr : U64) (data : List U8)
    (hcov : (flat ops).Covers addr.toNat data.length) :
    flat (ops ++ [.write addr data]) = (flat ops).write addr.toNat data := by
  funext a
  have hmapped : Mapped (ops ++ [.write addr data]) a ↔ Mapped ops a := by
    unfold Mapped
    rw [mapRanges_write]
  unfold FlatMemory.write
  simp only [flat, hmapped, lastWritten_snoc, GuestOp.byteAfter]
  by_cases ha : a ∈ span addr.toNat data.length
  · have hm : Mapped ops a := by
      by_contra h
      exact hcov a ha (if_neg h)
    rw [mem_span] at ha
    have hi : a - addr.toNat < data.length := by omega
    rw [if_pos hm, if_pos (mem_span.mpr ha), if_pos (mem_span.mpr ha), List.getD_eq_getElem _ _ hi,
      List.getElem?_eq_getElem hi]
  · rw [if_neg ha, if_neg ha]

/-! ### The guest is that memory -/

structure Represents (ops : List GuestOp) (m : InMemGuest) : Prop where
  wf : m.Wf
  entries : ∀ e ∈ m.bytes.entries, (e.1.toNat, e.2.length) ∈ mapRanges ops
  contents : m.contents = flat ops
  zero : ∀ a, ¬Mapped ops a → lastWritten ops a = 0

theorem represents_new : Represents [] InMemGuest.new :=
  ⟨wf_new, nofun, rfl, fun _ _ => rfl⟩

theorem mapAnon_apart {m : InMemGuest} (hm : m.Wf) {base : U64} {len : ℕ} (prot : U32)
    (hpos : 0 < len) (hbelow : base.toNat + len < 2 ^ 64)
    (hapart : ∀ e ∈ m.bytes.entries, Disjoint (span e.1.toNat e.2.length) (span base.toNat len))
    (hret : (InMemGuest.mapAnon base len prot m).1.Returns) :
    ∃ m', InMemGuest.mapAnon base len prot m = (.ok (), m') ∧ m'.Wf ∧
      m'.contents = m.contents.fill base.toNat len 0 ∧
      ∀ e, e ∈ m'.bytes.entries ↔ e = (base, List.replicate len 0) ∨ e ∈ m.bytes.entries := by
  rcases mapAnon_cases m base len prot with ⟨⟨bytes, hkey⟩, -⟩ | ⟨-, -, hrun⟩ | ⟨hfresh, -, hrun⟩
  · have hmeet := disjoint_span_iff.mp (hapart _ hkey)
    have hpos' := hm.nonempty _ hkey
    simp only at hmeet hpos'
    omega
  · rw [hrun] at hret
    exact absurd hret (Outcome.not_returns_fault _)
  have hmem : ∀ e, e ∈ (m.bytes.insert base (List.replicate len 0)).entries ↔
      e = (base, List.replicate len 0) ∨ e ∈ m.bytes.entries := by
    intro e
    rw [BTreeMap.mem_insert]
    exact or_congr_right ⟨And.left, fun he => ⟨he, hfresh e he⟩⟩
  have hlen : (List.replicate len (0 : U8)).length = len := List.length_replicate
  have hwf : (InMemGuest.mk (m.bytes.insert base (List.replicate len 0))).Wf := by
    refine ⟨apart_insert hm.apart (by rwa [hlen]), ?_, ?_⟩
    · intro e he
      rcases (hmem e).mp he with rfl | he
      · simpa only [hlen] using hpos
      · exact hm.nonempty e he
    · intro e he
      rcases (hmem e).mp he with rfl | he
      · simpa only [hlen] using hbelow
      · exact hm.below e he
  exact ⟨_, hrun, hwf, contents_add hm.separated hwf.separated hmem, hmem⟩

theorem represents_map {b : Build} {ops : List GuestOp} {m : InMemGuest} (hrep : Represents ops m)
    {base : U64} {len : ℕ} {prot : U32} (hmaps : MapsApart (ops ++ [.mapAnon base len prot]))
    (hdone : (GuestOp.mapAnon base len prot).Done b m) :
    Represents (ops ++ [.mapAnon base len prot]) (InMemGuest.mapAnon base len prot m).2 := by
  obtain ⟨hdisj, hpos, hbelow⟩ := hmaps
  rw [mapRanges_map] at hdisj hpos hbelow
  have hapart : ∀ r ∈ mapRanges ops, Disjoint (span r.1 r.2) (span base.toNat len) :=
    fun r hr => (List.pairwise_append.mp hdisj).2.2 r hr _ (List.mem_singleton_self _)
  have hlast : (base.toNat, len) ∈ mapRanges ops ++ [(base.toNat, len)] :=
    List.mem_append_right _ (List.mem_singleton_self _)
  obtain ⟨m', hrun, hwf, hcont, hmem⟩ := mapAnon_apart hrep.wf prot (hpos _ hlast) (hbelow _ hlast)
    (fun e he => hapart _ (hrep.entries e he)) hdone
  rw [hrun]
  refine ⟨hwf, ?_, ?_, ?_⟩
  · intro e he
    rw [mapRanges_map]
    rcases (hmem e).mp he with rfl | he
    · rw [List.length_replicate]
      exact hlast
    · exact List.mem_append_left _ (hrep.entries e he)
  · rw [hcont, hrep.contents, flat_map ops base len prot hrep.zero hapart]
  · intro a ha
    rw [lastWritten_snoc]
    apply hrep.zero a
    intro h
    obtain ⟨r, hr, har⟩ := h
    exact ha ⟨r, by rw [mapRanges_map]; exact List.mem_append_left _ hr, har⟩

theorem represents_write {b : Build} {ops : List GuestOp} {m : InMemGuest} (hrep : Represents ops m)
    {addr : U64} {data : List U8} (hdone : (GuestOp.write addr data).Done b m) :
    Represents (ops ++ [.write addr data]) (InMemGuest.write b addr data m).2 := by
  have hok : (InMemGuest.write b addr data m).1 = .ok () := hdone
  rcases write_exact b hrep.wf addr data with ⟨hcov, m', hrun, hlay, hcont⟩ | ⟨-, e, m', hrun⟩
  swap
  · rw [hrun] at hok
    cases hok
  rw [hrep.contents] at hcov
  rw [hrun]
  refine ⟨hrep.wf.of_layout hlay, ?_, ?_, ?_⟩
  · intro e' he'
    obtain ⟨e, he, hk, hn⟩ := entry_of_layout hlay he'
    rw [mapRanges_write, ← hk, ← hn]
    exact hrep.entries e he
  · rw [hcont, hrep.contents, flat_write ops addr data hcov]
  · intro a ha
    have hold : ¬Mapped ops a := by
      unfold Mapped at ha
      rwa [mapRanges_write] at ha
    have hout : a ∉ span addr.toNat data.length := fun hin => hcov a hin (if_neg hold)
    rw [lastWritten_snoc, GuestOp.byteAfter, if_neg hout]
    exact hrep.zero a hold

theorem represents_after {b : Build} {ops : List GuestOp} (hmaps : MapsApart ops)
    (hdone : ∀ pre op, pre ++ [op] <+: ops → op.Done b (guestAfter b pre)) :
    Represents ops (guestAfter b ops) := by
  have hall : ∀ pre, pre <+: ops → Represents pre (guestAfter b pre) := by
    intro pre
    induction pre using List.reverseRec with
    | nil => exact fun _ => represents_new
    | append_singleton pre op ih =>
      intro hpre
      have hrep := ih ((List.prefix_append pre [op]).trans hpre)
      have hcall := hdone pre op hpre
      unfold guestAfter at hrep hcall ⊢
      rw [Act.runAll_snoc]
      cases op with
      | mapAnon base len prot => exact represents_map hrep (hmaps.initial hpre) hcall
      | write addr data => exact represents_write hrep hcall
  exact hall ops (List.prefix_refl ops)

/-! ### Reads and writes of the guest -/

/-- The guest reads as the flat memory `f` does. -/
structure ReadsFlat (b : Build) (m : InMemGuest) (f : FlatMemory U8) : Prop where
  returns : ∀ addr len, len ≤ isizeMax → (InMemGuest.read b m addr len).Returns
  ok_iff : ∀ addr len, len ≤ isizeMax →
    ((∃ bs, InMemGuest.read b m addr len = .ok bs) ↔ f.Covers addr.toNat len)
  bytes : ∀ addr len bs, InMemGuest.read b m addr len = .ok bs →
    bs.length = len ∧ f.Holds addr.toNat bs
  error : ∀ addr len e, len ≤ isizeMax → InMemGuest.read b m addr len = .err e →
    f.FirstGap addr.toNat len e.addr.toNat ∧ e.len = addr.toNat + len - e.addr.toNat
  split : ∀ addr k n bs, InMemGuest.read b m addr (k + n) = .ok bs →
    InMemGuest.read b m addr k = .ok (bs.take k) ∧
      InMemGuest.read b m (addr + BitVec.ofNat 64 k) n = .ok (bs.drop k)

/-- The guest writes as the flat memory `f` does: to a covered range only, and then
that range and nothing else changes. -/
structure WritesFlat (b : Build) (m : InMemGuest) (f : FlatMemory U8) : Prop where
  returns : ∀ addr data, (InMemGuest.write b addr data m).1.Returns
  ok_iff : ∀ addr data,
    (InMemGuest.write b addr data m).1 = .ok () ↔ f.Covers addr.toNat data.length
  effect : ∀ addr data, (InMemGuest.write b addr data m).1 = .ok () →
    ReadsFlat b (InMemGuest.write b addr data m).2 (f.write addr.toNat data)

theorem reserved_of_read {b : Build} {m : InMemGuest} {addr : U64} {len : ℕ} {bs : List U8}
    (h : InMemGuest.read b m addr len = .ok bs) : len ≤ isizeMax := by
  have hret := (InMemGuest.read_returns_iff b m addr len).mp (h ▸ Outcome.returns_ok bs)
  exact hret.1

theorem read_split (b : Build) {m : InMemGuest} (hm : m.Wf) {addr : U64} {k n : ℕ} {bs : List U8}
    (h : InMemGuest.read b m addr (k + n) = .ok bs) :
    InMemGuest.read b m addr k = .ok (bs.take k) ∧
      InMemGuest.read b m (addr + BitVec.ofNat 64 k) n = .ok (bs.drop k) := by
  have hlen := reserved_of_read h
  obtain ⟨hbs, hheld⟩ := (read_ok_iff b hm addr hlen bs).mp h
  have hk : (bs.take k).length = k := by
    rw [List.length_take]
    omega
  have hn : (bs.drop k).length = n := by
    rw [List.length_drop]
    omega
  rw [← List.take_append_drop k bs, FlatMemory.holds_append, hk] at hheld
  have hword : (addr + BitVec.ofNat 64 k).toNat = addr.toNat + k := by
    have hcov := hheld.1.covers
    rw [hk] at hcov
    exact toNat_add_ofNat_of_lt addr k (below_of_covers hm addr.isLt hcov)
  constructor
  · exact (read_ok_iff b hm addr (by omega) _).mpr ⟨hk, hheld.1⟩
  · exact (read_ok_iff b hm _ (by omega) _).mpr ⟨hn, hword ▸ hheld.2⟩

theorem readsFlat (b : Build) {m : InMemGuest} (hm : m.Wf) : ReadsFlat b m m.contents := by
  constructor
  case split => exact fun addr k n bs h => read_split b hm h
  case returns =>
    intro addr len hlen
    rcases read_exact b hm addr hlen with ⟨bs, hrun, -⟩ | ⟨g, hrun, -⟩
    · rw [hrun]
      exact Outcome.returns_ok bs
    · rw [hrun]
      exact Outcome.returns_err _
  case ok_iff =>
    intro addr len hlen
    rcases read_exact b hm addr hlen with ⟨bs, hrun, hbs, hheld⟩ | ⟨g, hrun, hgap⟩
    · exact iff_of_true ⟨bs, hrun⟩ (hbs ▸ hheld.covers)
    · refine iff_of_false ?_ hgap.not_covers
      rw [hrun]
      exact nofun
  case bytes =>
    intro addr len bs h
    exact (read_ok_iff b hm addr (reserved_of_read h) bs).mp h
  case error =>
    intro addr len e hlen h
    rcases read_exact b hm addr hlen with ⟨bs, hrun, -⟩ | ⟨g, hrun, hgap⟩
    · rw [hrun] at h
      cases h
    · rw [hrun] at h
      cases h
      exact ⟨hgap, rfl⟩

theorem writesFlat (b : Build) {m : InMemGuest} (hm : m.Wf) : WritesFlat b m m.contents := by
  constructor
  case returns =>
    intro addr data
    rcases write_exact b hm addr data with ⟨-, m', hrun, -⟩ | ⟨-, e, m', hrun⟩
    · rw [hrun]
      exact Outcome.returns_ok ()
    · rw [hrun]
      exact Outcome.returns_err e
  case ok_iff =>
    intro addr data
    rcases write_exact b hm addr data with ⟨hcov, m', hrun, -⟩ | ⟨hbad, e, m', hrun⟩
    · rw [hrun]
      exact iff_of_true rfl hcov
    · rw [hrun]
      exact iff_of_false nofun hbad
  case effect =>
    intro addr data h
    rcases write_exact b hm addr data with ⟨-, m', hrun, hlay, hcont⟩ | ⟨-, e, m', hrun⟩
    · rw [hrun, ← hcont]
      exact readsFlat b (hm.of_layout hlay)
    · rw [hrun] at h
      cases h

/-- After mappings that are apart and writes that succeeded, the guest reads and
writes as the flat memory of its history. -/
theorem guest_refines_flat (b : Build) (ops : List GuestOp) (hmaps : MapsApart ops)
    (hdone : ∀ pre op, pre ++ [op] <+: ops → op.Done b (guestAfter b pre)) :
    ReadsFlat b (guestAfter b ops) (flat ops) ∧ WritesFlat b (guestAfter b ops) (flat ops) := by
  have hrep := represents_after hmaps hdone
  rw [← hrep.contents]
  exact ⟨readsFlat b hrep.wf, writesFlat b hrep.wf⟩

def twoRegions : List GuestOp :=
  [.mapAnon 0x1000 8 3, .mapAnon 0x1008 8 3, .write 0x1006 [1, 2, 3, 4]]

theorem twoRegions_flat : ReadsFlat .debug (guestAfter .debug twoRegions) (flat twoRegions) ∧
    WritesFlat .debug (guestAfter .debug twoRegions) (flat twoRegions) := by
  have hcalls : Act.AllCalls (GuestOp.run .debug) (fun m op => op.Done .debug m) twoRegions
      InMemGuest.new := by decide +kernel
  apply guest_refines_flat .debug twoRegions ?_ hcalls.at_call
  have hranges : mapRanges twoRegions = [(0x1000, 8), (0x1008, 8)] := by decide
  refine ⟨?_, ?_, ?_⟩
  · rw [hranges, List.pairwise_pair, disjoint_span_iff]
    decide
  · rw [hranges]
    decide
  · rw [hranges]
    decide

end WinVpwn.Vkernel

import WinVpwn.Vkernel.FailedWrite
import WinVpwn.Vkernel.GuestRun

/-!
# Mapping over guest memory

`map_anon` refuses a base at which a region starts and nothing else. A range that
meets a region at any other place hides part of it or covers it anew.
-/

namespace WinVpwn.Vkernel
open Rust Lib InMemGuest

namespace InMemGuest

/-- The byte the lookup finds at an address. -/
def byteAt (m : InMemGuest) (addr : U64) : Option U8 :=
  (m.region addr).bind fun e => e.2[(addr - e.1).toNat]?

/- The region found for an address is the one found for every address from its
base up to there. -/
theorem region_between {m : InMemGuest} {addr a : U64} {e : U64 × List U8}
    (h : m.region addr = some e) (hlo : e.1 ≤ a) (hhi : a ≤ addr) : m.region a = some e := by
  obtain ⟨hmem, hle, hreach⟩ := region_eq_some m addr e.1 e.2 h
  obtain ⟨hlast, -⟩ := Option.filter_eq_some_iff.mp h
  obtain ⟨-, -, hmax⟩ := (m.bytes.lastLE_eq_some addr e).mp hlast
  have hlast' : m.bytes.lastLE a = some e := by
    rw [BTreeMap.lastLE_eq_some]
    exact ⟨hmem, hlo, fun x hx hxa => hmax x hx (hxa.trans hhi)⟩
  have hlo' : e.1.toNat ≤ a.toNat := hlo
  have hhi' : a.toNat ≤ addr.toNat := hhi
  rw [region, hlast', Option.filter_some, if_pos]
  rw [decide_eq_true_eq, toNat_sub_of_le a e.1 hlo']
  omega

/- A new base takes an address over only from a region that starts below it. -/
theorem region_insert {m : InMemGuest} {addr base : U64} {e : U64 × List U8} (bytes : List U8)
    (h : m.region addr = some e) (hne : e.1 ≠ base) (hout : ¬(e.1 < base ∧ base ≤ addr)) :
    (InMemGuest.mk (m.bytes.insert base bytes)).region addr = some e := by
  obtain ⟨hlast, hreach⟩ := Option.filter_eq_some_iff.mp h
  obtain ⟨hmem, hle, hmax⟩ := (m.bytes.lastLE_eq_some addr e).mp hlast
  have hlast' : (m.bytes.insert base bytes).lastLE addr = some e := by
    rw [BTreeMap.lastLE_eq_some]
    refine ⟨(BTreeMap.mem_insert ..).mpr (Or.inr ⟨hmem, hne⟩), hle, fun x hx hxaddr => ?_⟩
    rcases (BTreeMap.mem_insert ..).mp hx with rfl | ⟨hx, -⟩
    · by_contra hlt
      exact hout ⟨not_le.mp hlt, hxaddr⟩
    · exact hmax x hx hxaddr
  rw [region, hlast', Option.filter_some, if_pos hreach]

theorem region_insert_empty (m : InMemGuest) (base : U64) :
    (InMemGuest.mk (m.bytes.insert base [])).region base = none := by
  have hlast : (m.bytes.insert base []).lastLE base = some (base, []) := by
    rw [BTreeMap.lastLE_eq_some]
    exact ⟨(BTreeMap.mem_insert ..).mpr (Or.inl rfl), le_refl _, fun x _ hx => hx⟩
  rw [region, hlast, Option.filter_some, if_neg]
  simp

/- An empty region put over an address that was held hides its byte. -/
theorem empty_hides {m : InMemGuest} {base : U64} {e : U64 × List U8} (h : m.region base = some e) :
    ∃ x, m.byteAt base = some x ∧ (InMemGuest.mk (m.bytes.insert base [])).byteAt base = none := by
  obtain ⟨-, hle, hreach⟩ := region_eq_some m base e.1 e.2 h
  have hoff : (base - e.1).toNat < e.2.length := by
    rw [toNat_sub_of_le base e.1 hle]
    exact hreach
  refine ⟨e.2[(base - e.1).toNat], ?_, ?_⟩
  · rw [byteAt, h, Option.bind_some, List.getElem?_eq_getElem hoff]
  · rw [byteAt, region_insert_empty, Option.bind_none]

theorem readLoop_of_hits {b : Build} {m m' : InMemGuest}
    (hhits : ∀ a e, m.region a = some e → m'.region a = some e) {len fuel : ℕ} {cursor : U64}
    {out bs : List U8} (h : readLoop b m len fuel cursor out = .ok bs) :
    readLoop b m' len fuel cursor out = .ok bs := by
  induction fuel generalizing cursor out with
  | zero =>
    rw [readLoop] at h ⊢
    exact h
  | succ fuel ih =>
    by_cases hmore : out.length < len
    swap
    · rw [readLoop_done b m len _ cursor out hmore] at h
      rw [readLoop_done b m' len _ cursor out hmore, h]
    cases hr : m.region cursor with
    | none =>
      rw [readLoop, if_pos hmore] at h
      simp only [hr] at h
      cases h
    | some e =>
      obtain ⟨chunk, hchunk, -, hstep⟩ := readLoop_step b m len fuel cursor e.1 out e.2 hmore hr
      obtain ⟨chunk', hchunk', -, hstep'⟩ := readLoop_step b m' len fuel cursor e.1 out e.2 hmore
        (hhits cursor e hr)
      rw [hstep] at h
      obtain ⟨next, hadd, hrest⟩ := Outcome.bind_eq_ok.mp h
      rw [hstep', hchunk', ← hchunk, hadd, Outcome.ok_bind]
      exact ih hrest

theorem read_of_hits {b : Build} {m m' : InMemGuest}
    (hhits : ∀ a e, m.region a = some e → m'.region a = some e) {addr : U64} {n : ℕ} {bs : List U8}
    (h : read b m addr n = .ok bs) : read b m' addr n = .ok bs := by
  unfold read at h ⊢
  obtain ⟨u, hres, hloop⟩ := Outcome.bind_eq_ok.mp h
  rw [hres, Outcome.ok_bind]
  exact readLoop_of_hits hhits hloop

/-- What a `map_anon` call should not do: lose a byte or a read, or accept a range
that meets a region. -/
structure Keeps (b : Build) (m : InMemGuest) (base : U64) (len : ℕ)
    (out : Outcome GuestMemError Unit × InMemGuest) : Prop where
  bytes : out.1 = .ok () → ∀ a x, m.byteAt a = some x → out.2.byteAt a = some x
  reads : out.1 = .ok () → ∀ a n bs, read b m a n = .ok bs → read b out.2 a n = .ok bs
  refused : (∃ e ∈ m.bytes.entries, ¬Disjoint (span e.1.toNat e.2.length) (span base.toNat len)) →
    out.1 ≠ .ok ()

/-- The base is taken, the buffer cannot be had, or the range is free: it meets no
region, or is empty where no region is found. -/
def Fits (m : InMemGuest) (base : U64) (len : ℕ) : Prop :=
  (∃ bytes, (base, bytes) ∈ m.bytes.entries) ∨ isizeMax < len ∨
  (0 < len ∧ ∀ e ∈ m.bytes.entries, Disjoint (span e.1.toNat e.2.length) (span base.toNat len)) ∨
  (len = 0 ∧ m.region base = none)

theorem hits_of_fits {m : InMemGuest} {base : U64} {len : ℕ}
    (hfresh : ∀ e ∈ m.bytes.entries, e.1 ≠ base)
    (hfree : (0 < len ∧ ∀ e ∈ m.bytes.entries,
        Disjoint (span e.1.toNat e.2.length) (span base.toNat len)) ∨
      (len = 0 ∧ m.region base = none)) (bytes : List U8) (addr : U64) (e : U64 × List U8)
    (h : m.region addr = some e) :
    (InMemGuest.mk (m.bytes.insert base bytes)).region addr = some e := by
  obtain ⟨hmem, hle, hreach⟩ := region_eq_some m addr e.1 e.2 h
  apply region_insert bytes h (hfresh e hmem)
  intro hin
  obtain ⟨hlo, hhi⟩ := hin
  rcases hfree with ⟨hpos, hclear⟩ | ⟨-, hnone⟩
  · have hdisj := disjoint_span_iff.mp (hclear e hmem)
    have hlo' : e.1.toNat < base.toNat := hlo
    have hhi' : base.toNat ≤ addr.toNat := hhi
    omega
  · rw [region_between h hlo.le hhi] at hnone
    cases hnone

theorem keeps_iff_fits (b : Build) (m : InMemGuest) (base : U64) (len : ℕ) (prot : U32) :
    Keeps b m base len (mapAnon base len prot m) ↔ m.Fits base len := by
  rcases mapAnon_cases m base len prot with ⟨hkey, hrun⟩ | ⟨-, hlen, hrun⟩ | ⟨hfresh, hlen, hrun⟩
  · rw [hrun]
    exact iff_of_true ⟨nofun, nofun, fun _ => nofun⟩ (Or.inl hkey)
  · rw [hrun]
    exact iff_of_true ⟨nofun, nofun, fun _ => nofun⟩ (Or.inr (Or.inl hlen))
  rw [hrun]
  constructor
  · intro h
    refine Or.inr (Or.inr ?_)
    rcases Nat.eq_zero_or_pos len with rfl | hpos
    · refine Or.inr ⟨rfl, ?_⟩
      cases hr : m.region base with
      | none => rfl
      | some e =>
        obtain ⟨x, hbyte, hlost⟩ := empty_hides hr
        have hkept := h.bytes rfl base x hbyte
        rw [List.replicate_zero, hlost] at hkept
        cases hkept
    · refine Or.inl ⟨hpos, fun e he => ?_⟩
      by_contra hmeet
      exact h.refused ⟨e, he, hmeet⟩ rfl
  · intro h
    have hfree : (0 < len ∧ ∀ e ∈ m.bytes.entries,
        Disjoint (span e.1.toNat e.2.length) (span base.toNat len)) ∨
        (len = 0 ∧ m.region base = none) := by
      rcases h with ⟨bytes, hkey⟩ | hbig | hfree
      · exact absurd rfl (hfresh _ hkey)
      · exact absurd hlen (Nat.not_le.mpr hbig)
      · exact hfree
    have hhits := hits_of_fits hfresh hfree (List.replicate len 0)
    refine ⟨fun _ a x hx => ?_, fun _ a n bs hread => read_of_hits hhits hread, fun hmeet => ?_⟩
    · obtain ⟨e, he, hbyte⟩ := Option.bind_eq_some_iff.mp hx
      exact Option.bind_eq_some_iff.mpr ⟨e, hhits a e he, hbyte⟩
    · obtain ⟨e, he, hmeet⟩ := hmeet
      rcases hfree with ⟨-, hclear⟩ | ⟨rfl, -⟩
      · exact absurd (hclear e he) hmeet
      · exact absurd (disjoint_span_iff.mpr (Or.inr (Or.inl rfl))) hmeet

theorem write_layout (b : Build) (addr : U64) (data : List U8) (m : InMemGuest) :
    (write b addr data m).2.layout = m.layout :=
  (writeLoop_frame b data data.length addr 0 m).1

end InMemGuest

/-! ### Runs -/

def GuestOp.Keeps (b : Build) (m : InMemGuest) : GuestOp → Prop
  | .mapAnon base len prot => InMemGuest.Keeps b m base len (InMemGuest.mapAnon base len prot m)
  | .write _ _ => True

def GuestOp.Fits (m : InMemGuest) : GuestOp → Prop
  | .mapAnon base len _ => m.Fits base len
  | .write _ _ => True

theorem GuestOp.keeps_iff_fits (b : Build) (m : InMemGuest) (op : GuestOp) :
    op.Keeps b m ↔ op.Fits m := by
  cases op with
  | mapAnon base len prot => exact InMemGuest.keeps_iff_fits b m base len prot
  | write addr data => exact Iff.rfl

theorem apart_step {b : Build} {m : InMemGuest} {op : GuestOp} (hm : m.Apart) (hfit : op.Fits m) :
    (op.run b m).2.Apart := by
  cases op with
  | write addr data => exact hm.of_layout (write_layout b addr data m)
  | mapAnon base len prot =>
    show (InMemGuest.mapAnon base len prot m).2.Apart
    rcases mapAnon_cases m base len prot with ⟨-, hrun⟩ | ⟨-, -, hrun⟩ | ⟨hfresh, hlen, hrun⟩
    · rw [hrun]
      exact hm
    · rw [hrun]
      exact hm
    rw [hrun]
    apply apart_insert hm
    intro e he
    rw [List.length_replicate]
    rcases hfit with ⟨bytes, hkey⟩ | hbig | ⟨-, hclear⟩ | ⟨rfl, -⟩
    · exact absurd rfl (hfresh _ hkey)
    · exact absurd hlen (Nat.not_le.mpr hbig)
    · exact hclear e he
    · exact disjoint_span_iff.mpr (Or.inr (Or.inl rfl))

/-- Through the run the regions stay apart, and no mapping loses a byte of the memory
before it or is accepted over a region. -/
structure MapsKeep (b : Build) (ops : List GuestOp) : Prop where
  apart : ∀ pre, pre <+: ops → (guestAfter b pre).Apart
  keeps : ∀ pre op, pre ++ [op] <+: ops → op.Keeps b (guestAfter b pre)

/-- That holds exactly when every mapping of the run fits the guest it is made in. -/
theorem mapsKeep_iff (b : Build) (ops : List GuestOp) :
    MapsKeep b ops ↔ ∀ pre op, pre ++ [op] <+: ops → op.Fits (guestAfter b pre) := by
  constructor
  · intro h pre op hpre
    exact (op.keeps_iff_fits b _).mp (h.keeps pre op hpre)
  · intro h
    refine ⟨?_, fun pre op hpre => (op.keeps_iff_fits b _).mpr (h pre op hpre)⟩
    exact Act.runAll_invariant (fun m op hm hfit => apart_step hm hfit) wf_new.apart h

theorem nested_map_hides : ¬MapsKeep .release
    [.mapAnon 0x1000 16 3, .write 0x1008 [7], .mapAnon 0x1008 4 3] := by
  intro h
  have hkeeps := (h.keeps [.mapAnon 0x1000 16 3, .write 0x1008 [7]] _ (List.prefix_refl _)).bytes
    (by decide +kernel) 0x1008 7 (by decide +kernel)
  revert hkeeps
  decide +kernel

end WinVpwn.Vkernel

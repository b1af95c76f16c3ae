import WinVpwn.Vkernel.MapAnon
import WinVpwn.Vkernel.FailedWrite

/-!
# Guest memory at the top of the address space

`map_anon` accepts a region that reaches or crosses `2^64`. The loops of `read` and
`write` then add their cursor past the top: a debug build panics, and a release build
goes on at address 0. Below such a region nothing of the kind happens.
-/

namespace WinVpwn.Vkernel
open Rust Lib

namespace InMemGuest

/-- Every region that holds a byte ends below the top. -/
def BelowTop (m : InMemGuest) : Prop :=
  ∀ e ∈ m.bytes.entries, 0 < e.2.length → e.1.toNat + e.2.length < 2 ^ 64

/-- Buffers are no longer than one can be. -/
def Buffered (m : InMemGuest) : Prop := ∀ e ∈ m.bytes.entries, e.2.length ≤ isizeMax

/-- Guest memory does not wrap: no cursor addition overflows (a debug build checks each),
an access that succeeds ends at or below the top, and a write changes no byte below its
address or beyond the top. -/
structure NoWrap (m : InMemGuest) : Prop where
  read_sum : ∀ addr len, read .debug m addr len ≠ .fault .overflow
  write_sum : ∀ addr data, (write .debug addr data m).1 ≠ .fault .overflow
  read_below : ∀ b addr len bs, read b m addr len = .ok bs → addr.toNat + len ≤ 2 ^ 64
  write_below : ∀ b addr data, (write b addr data m).1 = .ok () →
    addr.toNat + data.length ≤ 2 ^ 64
  changed : ∀ b addr data base bytes, (base, bytes) ∈ m.bytes.entries →
    ∃ bytes', (base, bytes') ∈ (write b addr data m).2.bytes.entries
      ∧ ∀ i, bytes'[i]? ≠ bytes[i]? →
        addr.toNat ≤ base.toNat + i ∧ base.toNat + i < 2 ^ 64

theorem BelowTop.of_layout {m m' : InMemGuest} (hm : m.BelowTop) (h : m'.layout = m.layout) :
    m'.BelowTop := by
  intro e' he' hpos
  obtain ⟨e, he, hek, hen⟩ := entry_of_layout h he'
  rw [← hek, ← hen]
  exact hm e he (by omega)

theorem Buffered.of_layout {m m' : InMemGuest} (hm : m.Buffered) (h : m'.layout = m.layout) :
    m'.Buffered := by
  intro e' he'
  obtain ⟨e, he, -, hen⟩ := entry_of_layout h he'
  rw [← hen]
  exact hm e he

/-! ### Below the top -/

theorem chunk_below {m : InMemGuest} (hm : m.BelowTop) {cursor base : U64} {bytes : List U8}
    (hr : m.region cursor = some (base, bytes)) {n k : ℕ}
    (hk : k = min n (bytes.length - (cursor.toNat - base.toNat))) : cursor.toNat + k < 2 ^ 64 := by
  obtain ⟨hmem, hle, hreach⟩ := region_eq_some m cursor base bytes hr
  have hpos : 0 < bytes.length := by omega
  have hend : base.toNat + bytes.length < 2 ^ 64 := hm _ hmem hpos
  omega

theorem readLoop_below (b : Build) {m : InMemGuest} (hm : m.BelowTop) (len fuel : ℕ) (cursor : U64)
    {out : List U8} (hout : out.length ≤ len) :
    readLoop b m len fuel cursor out ≠ .fault .overflow
      ∧ ∀ bs, readLoop b m len fuel cursor out = .ok bs →
        cursor.toNat + (len - out.length) ≤ 2 ^ 64 := by
  have hcursor := cursor.isLt
  induction fuel generalizing cursor out with
  | zero =>
    rw [readLoop]
    split_ifs with hmore
    · exact ⟨by simp, by simp⟩
    · exact ⟨by simp, fun bs _ => by omega⟩
  | succ fuel ih =>
    by_cases hmore : out.length < len
    swap
    · rw [readLoop_done b m len _ cursor out hmore]
      exact ⟨by simp, fun bs _ => by omega⟩
    cases hr : m.region cursor with
    | none =>
      rw [readLoop, if_pos hmore]
      simp only [hr]
      exact ⟨by simp, by simp⟩
    | some e =>
      obtain ⟨base, bytes⟩ := e
      obtain ⟨chunk, -, hlen, hstep⟩ := readLoop_step b m len fuel cursor base out bytes hmore hr
      have hfit := chunk_below hm hr hlen
      have hnext := toNat_add_ofNat_of_lt cursor chunk.length hfit
      have hout' : (out ++ chunk).length = out.length + chunk.length := List.length_append ..
      rw [hstep, Build.add_ofNat_eq b _ _ hfit, Outcome.ok_bind]
      have hroom : (out ++ chunk).length ≤ len := by omega
      obtain ⟨hsum, hend⟩ := ih (cursor + BitVec.ofNat 64 chunk.length) hroom (by omega)
      refine ⟨hsum, fun bs hbs => ?_⟩
      have hle := hend bs hbs
      omega

theorem writeLoop_above (b : Build) (data : List U8) (fuel : ℕ) (cursor : U64) (idx : ℕ)
    {m : InMemGuest} (hm : m.BelowTop) :
    SameBytes {a | a < cursor.toNat} m (writeLoop b data fuel cursor idx m).2 := by
  have hinv := writeLoop_invariant b data
    (P := fun cursor' _ m' => cursor.toNat ≤ cursor'.toNat ∧ m'.layout = m.layout ∧
      SameBytes {a | a < cursor.toNat} m m')
    ?_ fuel cursor idx m ⟨le_refl cursor.toNat, rfl, SameBytes.refl _ m⟩
  · obtain ⟨-, -, -, -, hsame⟩ := hinv
    exact hsame
  · intro cursor' idx' m' base bytes chunk m₁ hmore hr hlen hm₁ hlay h
    obtain ⟨hat, hlay', hsame⟩ := h
    have hstep := toNat_add_ofNat_of_lt cursor' chunk.length
      (chunk_below (hm.of_layout hlay') hr hlen)
    refine ⟨by omega, hlay.trans hlay', hsame.trans ?_⟩
    rw [hm₁]
    apply sameBytes_patch hr (by omega)
    intro j hj hkeep
    have hlow : cursor'.toNat + j < cursor.toNat := hkeep
    omega

theorem read_below (b : Build) {m : InMemGuest} (hm : m.BelowTop) (addr : U64) (len : ℕ) :
    read b m addr len ≠ .fault .overflow
      ∧ ∀ bs, read b m addr len = .ok bs → addr.toNat + len ≤ 2 ^ 64 := by
  unfold read
  by_cases hlen : len ≤ isizeMax
  · rw [reserve_eq len hlen, Outcome.ok_bind]
    exact readLoop_below b hm len len addr (show [].length ≤ len from Nat.zero_le _)
  · simp [reserve, hlen]

theorem write_below (b : Build) {m : InMemGuest} (hm : m.BelowTop) (addr : U64) (data : List U8) :
    (write b addr data m).1 ≠ .fault .overflow
      ∧ ((write b addr data m).1 = .ok () → addr.toNat + data.length ≤ 2 ^ 64) := by
  obtain ⟨hsum, hend⟩ := readLoop_below b hm data.length data.length addr
    (show [].length ≤ data.length from Nat.zero_le _)
  have hvoid : (write b addr data m).1 = (readLoop b m data.length data.length addr []).void :=
    writeLoop_void b data data.length addr List.length_nil m
  rw [hvoid]
  cases hrun : readLoop b m data.length data.length addr [] with
  | ok bs => exact ⟨by simp, fun _ => by simpa using hend bs hrun⟩
  | err e => exact ⟨by simp, by simp⟩
  | fault p =>
    refine ⟨?_, by simp⟩
    intro h
    cases h
    exact hsum hrun

theorem noWrap_of_belowTop {m : InMemGuest} (hm : m.BelowTop) : m.NoWrap where
  read_sum addr len := (read_below .debug hm addr len).1
  write_sum addr data := (write_below .debug hm addr data).1
  read_below b addr len := (read_below b hm addr len).2
  write_below b addr data := (write_below b hm addr data).2
  changed := by
    intro b addr data base bytes hmem
    obtain ⟨bytes', hmem', hsame⟩ := writeLoop_above b data data.length addr 0 hm base bytes hmem
    refine ⟨bytes', hmem', fun i hi => ?_⟩
    have habove : addr.toNat ≤ base.toNat + i := by
      by_contra hlt
      exact hi (hsame i (Nat.not_le.mp hlt))
    obtain ⟨⟨base₀, bytes₀⟩, hmem₀, hbase, hlen⟩ :=
      entry_of_layout (write_layout b addr data m) hmem'
    obtain rfl : bytes₀ = bytes := congrArg Prod.snd (m.bytes.key_unique hmem₀ hmem hbase)
    have hlen : bytes₀.length = bytes'.length := hlen
    have hlt : i < bytes₀.length := by
      by_contra hge
      have hout : bytes₀[i]? = none := List.getElem?_eq_none (Nat.not_lt.mp hge)
      have hout' : bytes'[i]? = none := List.getElem?_eq_none (hlen ▸ Nat.not_lt.mp hge)
      exact hi (hout'.trans hout.symm)
    have hend : base.toNat + bytes₀.length < 2 ^ 64 :=
      hm _ hmem (Nat.zero_lt_of_lt hlt)
    omega

/-! ### At the top -/

theorem region_base {m : InMemGuest} {e : U64 × List U8} (he : e ∈ m.bytes.entries)
    (hpos : 0 < e.2.length) : m.region e.1 = some e := by
  have hlast : m.bytes.lastLE e.1 = some e :=
    (m.bytes.lastLE_eq_some e.1 e).mpr ⟨he, le_refl _, fun _ _ hle => hle⟩
  have hoff : (e.1 - e.1).toNat < e.2.length := by
    rw [toNat_sub_of_le _ _ (le_refl _), Nat.sub_self]
    exact hpos
  rw [region, hlast, Option.filter_some, if_pos (decide_eq_true hoff)]

/- Reading a region that reaches the top, whole, adds the cursor past the top. -/
theorem read_overflows {m : InMemGuest} {e : U64 × List U8} (he : e ∈ m.bytes.entries)
    (hlen : e.2.length ≤ isizeMax) (hpos : 0 < e.2.length)
    (htop : 2 ^ 64 ≤ e.1.toNat + e.2.length) :
    read .debug m e.1 e.2.length = .fault .overflow := by
  obtain ⟨fuel, hfuel⟩ := Nat.exists_eq_succ_of_ne_zero hpos.ne'
  have hr : m.region e.1 = some (e.1, e.2) := region_base he hpos
  obtain ⟨chunk, -, hchunk, hstep⟩ :=
    readLoop_step .debug m e.2.length fuel e.1 e.1 [] e.2 hpos hr
  have hwhole : chunk.length = e.2.length := by
    rw [hchunk, Nat.sub_self]
    exact min_self _
  have hword : (BitVec.ofNat 64 e.2.length).toNat = e.2.length := by
    rw [BitVec.toNat_ofNat]
    unfold isizeMax at hlen
    omega
  have hover : ¬e.1.toNat + (BitVec.ofNat 64 chunk.length).toNat < 2 ^ 64 := by
    rw [hwhole, hword]
    omega
  unfold read
  rw [reserve_eq _ hlen, Outcome.ok_bind]
  nth_rewrite 2 [hfuel]
  rw [hstep, Build.add, if_neg hover, Outcome.fault_bind]

theorem noWrap_iff {m : InMemGuest} (hm : m.Buffered) : m.NoWrap ↔ m.BelowTop := by
  constructor
  · intro h e he hpos
    by_contra htop
    exact h.read_sum e.1 e.2.length (read_overflows he (hm e he) hpos (Nat.not_lt.mp htop))
  · exact noWrap_of_belowTop

end InMemGuest

/-! ### Runs -/

/-- The call maps nothing that reaches the top: it is a write, its base is taken, its buffer
cannot be had or is empty, or its range ends below the top. -/
def GuestOp.EndsBelow (m : InMemGuest) : GuestOp → Prop
  | .mapAnon base len _ => (∃ bytes, (base, bytes) ∈ m.bytes.entries) ∨ isizeMax < len ∨ len = 0 ∨
      base.toNat + len < 2 ^ 64
  | .write _ _ => True

theorem buffered_step {b : Build} {m : InMemGuest} (op : GuestOp) (hm : m.Buffered) :
    (op.run b m).2.Buffered := by
  cases op with
  | write addr data => exact hm.of_layout (InMemGuest.write_layout b addr data m)
  | mapAnon base len prot =>
    show (InMemGuest.mapAnon base len prot m).2.Buffered
    rcases InMemGuest.mapAnon_cases m base len prot with
      ⟨-, hrun⟩ | ⟨-, -, hrun⟩ | ⟨-, hlen, hrun⟩
    · rw [hrun]
      exact hm
    · rw [hrun]
      exact hm
    · rw [hrun]
      intro e he
      rcases (BTreeMap.mem_insert ..).mp he with rfl | ⟨he, -⟩
      · rwa [List.length_replicate]
      · exact hm e he

theorem buffered_after (b : Build) (ops : List GuestOp) : (guestAfter b ops).Buffered := by
  induction ops using List.reverseRec with
  | nil => exact fun e he => by cases he
  | append_singleton ops op ih =>
    unfold guestAfter
    rw [Act.runAll_snoc]
    exact buffered_step op ih

theorem belowTop_step {b : Build} (m : InMemGuest) (op : GuestOp) (hm : m.BelowTop) :
    (op.run b m).2.BelowTop ↔ op.EndsBelow m := by
  cases op with
  | write addr data =>
    exact iff_of_true (hm.of_layout (InMemGuest.write_layout b addr data m)) trivial
  | mapAnon base len prot =>
    show (InMemGuest.mapAnon base len prot m).2.BelowTop ↔ _
    rcases InMemGuest.mapAnon_cases m base len prot with
      ⟨htaken, hrun⟩ | ⟨-, hbig, hrun⟩ | ⟨hfresh, hlen, hrun⟩
    · rw [hrun]
      exact iff_of_true hm (.inl htaken)
    · rw [hrun]
      exact iff_of_true hm (.inr (.inl hbig))
    · rw [hrun]
      constructor
      · intro h
        rcases Nat.eq_zero_or_pos len with hzero | hpos
        · exact .inr (.inr (.inl hzero))
        · have hend := h (base, List.replicate len 0) ((BTreeMap.mem_insert ..).mpr (.inl rfl))
          rw [List.length_replicate] at hend
          exact .inr (.inr (.inr (hend hpos)))
      · intro h e he hpos
        rcases (BTreeMap.mem_insert ..).mp he with rfl | ⟨he, -⟩
        · rw [List.length_replicate] at hpos ⊢
          rcases h with ⟨bytes, htaken⟩ | hbig | hzero | hend
          · exact absurd rfl (hfresh _ htaken)
          · omega
          · omega
          · exact hend
        · exact hm e he hpos

/-- Guest memory never wraps in a run exactly when no mapping of the run reaches the top. -/
theorem noWrap_run_iff (b : Build) (ops : List GuestOp) :
    (∀ pre, pre <+: ops → (guestAfter b pre).NoWrap) ↔
      ∀ pre op, pre ++ [op] <+: ops → op.EndsBelow (guestAfter b pre) := by
  have hstate : ∀ pre, (guestAfter b pre).NoWrap ↔ (guestAfter b pre).BelowTop :=
    fun pre => InMemGuest.noWrap_iff (buffered_after b pre)
  simp only [hstate]
  exact Act.runAll_invariant_iff (fun m op hm => belowTop_step m op hm)
    (fun e he => by cases he)

def acrossTop : List GuestOp := [.mapAnon 0xfffffffffffffff0 16 3, .mapAnon 0 16 3]

/- A debug build panics on the cursor, a release build reads on at address 0. -/
theorem acrossTop_wraps :
    (guestAfter .debug acrossTop).read .debug 0xfffffffffffffff8 16 = .fault .overflow
      ∧ (guestAfter .release acrossTop).read .release 0xfffffffffffffff8 16
        = .ok (List.replicate 16 0)
      ∧ ¬(guestAfter .release acrossTop).NoWrap := by
  have hread : (guestAfter .release acrossTop).read .release 0xfffffffffffffff8 16
      = .ok (List.replicate 16 0) := by decide +kernel
  refine ⟨by decide +kernel, hread, ?_⟩
  intro h
  exact absurd (h.read_below _ _ _ _ hread) (by decide)

end WinVpwn.Vkernel

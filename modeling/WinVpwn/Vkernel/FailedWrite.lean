import WinVpwn.Vkernel.Mem
import WinVpwn.Vkernel.FlatGuest

/-!
# A guest write that fails

`InMemGuest::write` finds an unmapped address only when its cursor gets there, and
the chunks copied by then stay. So a failed write is harmless exactly when the
bytes before the gap were there already. `UnicornGuest` checks the range first.
-/

namespace WinVpwn.Vkernel
open Rust Lib WinVpwn.Cpu

namespace InMemGuest

/-! ### The walk of the two loops

Both loops go from region to region by bases and lengths alone. -/

theorem region_layout (m : InMemGuest) (addr : U64) :
    (m.region addr).map (fun e => (e.1, e.2.length)) =
      (m.layout.filter fun r => r.1 ≤ addr).getLast?.filter fun r => (addr - r.1).toNat < r.2 := by
  unfold region BTreeMap.lastLE layout
  rw [List.filter_map, List.getLast?_map]
  show _ = Option.filter _ (Option.map _ (m.bytes.entries.filter fun e => e.1 ≤ addr).getLast?)
  cases (m.bytes.entries.filter fun e => e.1 ≤ addr).getLast? with
  | none => rfl
  | some e =>
    simp only [Option.filter_some, Option.map_some]
    split_ifs <;> rfl

section Layout
variable {m m' : InMemGuest} (h : m'.layout = m.layout) {addr : U64}
include h

theorem region_of_layout {base : U64} {bytes : List U8} (hr : m.region addr = some (base, bytes)) :
    ∃ bytes', m'.region addr = some (base, bytes') ∧ bytes'.length = bytes.length := by
  have heq := m'.region_layout addr
  rw [h, ← region_layout, hr] at heq
  obtain ⟨⟨base', bytes'⟩, hr', hkey⟩ := Option.map_eq_some_iff.mp heq
  simp only [Prod.mk.injEq] at hkey
  obtain ⟨rfl, hlen⟩ := hkey
  exact ⟨bytes', hr', hlen⟩

theorem region_none_of_layout (hr : m.region addr = none) : m'.region addr = none := by
  have heq := m'.region_layout addr
  rw [h, ← region_layout, hr] at heq
  exact Option.map_eq_none_iff.mp heq

theorem readLoop_void_congr (b : Build) (len fuel : ℕ) (cursor : U64) {out out' : List U8}
    (hout : out'.length = out.length) :
    (readLoop b m' len fuel cursor out').void = (readLoop b m len fuel cursor out).void := by
  induction fuel generalizing cursor out out' with
  | zero =>
    rw [readLoop, readLoop, hout]
    split_ifs <;> rfl
  | succ fuel ih =>
    by_cases hmore : out.length < len
    swap
    · rw [readLoop_done b m len _ cursor out hmore,
        readLoop_done b m' len _ cursor out' (by rwa [hout]), Outcome.void_ok, Outcome.void_ok]
    cases hr : m.region cursor with
    | none =>
      rw [readLoop, readLoop, if_pos hmore, if_pos (by rwa [hout]), hout]
      simp only [hr, region_none_of_layout h hr]
    | some e =>
      obtain ⟨base, bytes⟩ := e
      obtain ⟨bytes', hr', hlen'⟩ := region_of_layout h hr
      obtain ⟨chunk, -, hlen, hstep⟩ := readLoop_step b m len fuel cursor base out bytes hmore hr
      obtain ⟨chunk', -, hlenc, hstep'⟩ := readLoop_step b m' len fuel cursor base out' bytes'
        (by rwa [hout]) hr'
      have heq : chunk'.length = chunk.length := by rw [hlen, hlenc, hout, hlen']
      rw [hstep, hstep', heq]
      cases (b.add cursor (BitVec.ofNat 64 chunk.length) : Outcome GuestMemError U64) with
      | ok next =>
        exact ih next (by rw [List.length_append, List.length_append, hout, heq])
      | err e => rfl
      | fault p => rfl

end Layout

theorem writeLoop_next (b : Build) (data : List U8) (fuel : ℕ) (cursor : U64) {idx : ℕ}
    (hidx : idx < data.length) {m : InMemGuest} {base : U64} {bytes : List U8}
    (hr : m.region cursor = some (base, bytes)) :
    ∃ (chunk : List U8) (m₁ : InMemGuest),
      chunk.length = min (data.length - idx) (bytes.length - (cursor.toNat - base.toNat)) ∧
      data.drop idx = chunk ++ data.drop (idx + chunk.length) ∧
      m₁ = ⟨m.bytes.insert base (patch bytes (cursor.toNat - base.toNat) chunk)⟩ ∧
      m₁.layout = m.layout ∧
      (writeLoop b data (fuel + 1) cursor idx m =
        writeLoop b data fuel (cursor + BitVec.ofNat 64 chunk.length) (idx + chunk.length) m₁ ∧
          (b.add cursor (BitVec.ofNat 64 chunk.length) : Outcome GuestMemError U64) =
            .ok (cursor + BitVec.ofNat 64 chunk.length) ∨
        writeLoop b data (fuel + 1) cursor idx m = (.fault .overflow, m₁) ∧
          (b.add cursor (BitVec.ofNat 64 chunk.length) : Outcome GuestMemError U64) =
            .fault .overflow) := by
  obtain ⟨hmem, hle, hreach⟩ := region_eq_some m cursor base bytes hr
  obtain ⟨chunk, hlen, hdata, hstep⟩ := writeLoop_step b data fuel cursor hidx hr
  have hfit : cursor.toNat - base.toNat + chunk.length ≤ bytes.length := by omega
  refine ⟨chunk, _, hlen, hdata, rfl, layout_insert hmem (length_patch hfit), ?_⟩
  rw [hstep]
  rcases Build.add_cases (ε := GuestMemError) b cursor (BitVec.ofNat 64 chunk.length) with hadd | hadd
  · exact Or.inl ⟨Act.bind_of_ok (by rw [Act.lift_apply, hadd]), hadd⟩
  · exact Or.inr ⟨Act.bind_of_fault (by rw [Act.lift_apply, hadd]), hadd⟩

theorem writeLoop_void (b : Build) (data : List U8) (fuel : ℕ) (cursor : U64) {idx : ℕ}
    {out : List U8} (hout : out.length = idx) (m : InMemGuest) :
    (writeLoop b data fuel cursor idx m).1 = (readLoop b m data.length fuel cursor out).void := by
  induction fuel generalizing cursor idx out m with
  | zero =>
    rw [writeLoop, readLoop, hout]
    split_ifs <;> rfl
  | succ fuel ih =>
    by_cases hmore : idx < data.length
    swap
    · rw [writeLoop_done b data _ cursor hmore,
        readLoop_done b m data.length _ cursor out (by rwa [hout]), Outcome.void_ok]
    have hmore' : out.length < data.length := by rwa [hout]
    cases hr : m.region cursor with
    | none =>
      rw [writeLoop_none b data fuel cursor hmore hr, readLoop, if_pos hmore', hout]
      simp only [hr, Outcome.void_err]
    | some e =>
      obtain ⟨base, bytes⟩ := e
      obtain ⟨chunk, m₁, hlen, -, -, hlay, hnext⟩ := writeLoop_next b data fuel cursor hmore hr
      obtain ⟨chunk', -, hlen', hstep'⟩ := readLoop_step b m data.length fuel cursor base out bytes
        hmore' hr
      have heq : chunk'.length = chunk.length := by rw [hlen, hlen', hout]
      have hout' : (out ++ chunk').length = idx + chunk.length := by
        rw [List.length_append, hout, heq]
      rw [hstep', heq]
      rcases hnext with ⟨hrun, hadd⟩ | ⟨hrun, hadd⟩
      · rw [hrun, hadd, Outcome.ok_bind, ih _ hout']
        exact readLoop_void_congr hlay b _ _ _ rfl
      · rw [hrun, hadd, Outcome.fault_bind, Outcome.void_fault]

/- The rule for the guest that a write leaves: what each pass keeps, with the cursor and
the index it goes on from, the loop keeps, however it ends. -/
theorem writeLoop_invariant (b : Build) (data : List U8) {P : U64 → ℕ → InMemGuest → Prop}
    (hpass : ∀ {cursor idx m base bytes chunk m₁}, idx < data.length →
      m.region cursor = some (base, bytes) →
      chunk.length = min (data.length - idx) (bytes.length - (cursor.toNat - base.toNat)) →
      m₁ = ⟨m.bytes.insert base (patch bytes (cursor.toNat - base.toNat) chunk)⟩ →
      m₁.layout = m.layout → P cursor idx m →
        P (cursor + BitVec.ofNat 64 chunk.length) (idx + chunk.length) m₁)
    (fuel : ℕ) (cursor : U64) (idx : ℕ) (m : InMemGuest) (h : P cursor idx m) :
    ∃ cursor' idx', P cursor' idx' (writeLoop b data fuel cursor idx m).2 := by
  induction fuel generalizing cursor idx m with
  | zero =>
    have hkeep : (writeLoop b data 0 cursor idx m).2 = m := by
      rw [writeLoop]
      split_ifs <;> rfl
    rw [hkeep]
    exact ⟨cursor, idx, h⟩
  | succ fuel ih =>
    by_cases hmore : idx < data.length
    swap
    · rw [writeLoop_done b data _ cursor hmore]
      exact ⟨cursor, idx, h⟩
    cases hr : m.region cursor with
    | none =>
      rw [writeLoop_none b data fuel cursor hmore hr]
      exact ⟨cursor, idx, h⟩
    | some e =>
      obtain ⟨chunk, m₁, hlen, -, hm₁, hlay, hnext⟩ := writeLoop_next b data fuel cursor hmore hr
      have h₁ := hpass hmore hr hlen hm₁ hlay h
      rcases hnext with ⟨hrun, -⟩ | ⟨hrun, -⟩
      · rw [hrun]
        exact ih _ _ _ h₁
      · rw [hrun]
        exact ⟨_, _, h₁⟩

/-- At the addresses in `keep`, each region of `m` holds the same bytes in `m'`. -/
def SameBytes (keep : Set ℕ) (m m' : InMemGuest) : Prop :=
  ∀ base bytes, (base, bytes) ∈ m.bytes.entries →
    ∃ bytes', (base, bytes') ∈ m'.bytes.entries ∧
      ∀ i, base.toNat + i ∈ keep → bytes'[i]? = bytes[i]?

theorem SameBytes.refl (keep : Set ℕ) (m : InMemGuest) : SameBytes keep m m :=
  fun _ bytes hmem => ⟨bytes, hmem, fun _ _ => rfl⟩

theorem SameBytes.trans {keep : Set ℕ} {m₁ m₂ m₃ : InMemGuest} (h : SameBytes keep m₁ m₂)
    (h' : SameBytes keep m₂ m₃) : SameBytes keep m₁ m₃ := by
  intro base bytes hmem
  obtain ⟨bytes₂, hmem₂, hsame⟩ := h base bytes hmem
  obtain ⟨bytes₃, hmem₃, hsame'⟩ := h' base bytes₂ hmem₂
  exact ⟨bytes₃, hmem₃, fun i hi => (hsame' i hi).trans (hsame i hi)⟩

theorem sameBytes_patch {m : InMemGuest} {cursor base₀ : U64} {bytes₀ chunk : List U8}
    (hr : m.region cursor = some (base₀, bytes₀))
    (hlen : chunk.length ≤ bytes₀.length - (cursor.toNat - base₀.toNat)) {keep : Set ℕ}
    (hout : ∀ j < chunk.length, cursor.toNat + j ∉ keep) :
    SameBytes keep m
      ⟨m.bytes.insert base₀ (patch bytes₀ (cursor.toNat - base₀.toNat) chunk)⟩ := by
  obtain ⟨hmem₀, hle, hreach⟩ := region_eq_some m cursor base₀ bytes₀ hr
  have hfit : cursor.toNat - base₀.toNat + chunk.length ≤ bytes₀.length := by omega
  intro base bytes hmem
  by_cases hbase : base = base₀
  · subst hbase
    obtain rfl : bytes = bytes₀ := congrArg Prod.snd (m.bytes.key_unique hmem hmem₀ rfl)
    refine ⟨_, (BTreeMap.mem_insert ..).mpr (Or.inl rfl), fun i hi => ?_⟩
    rw [getElem?_patch hfit, if_neg]
    intro hin
    have haddr : cursor.toNat + (i - (cursor.toNat - base.toNat)) = base.toNat + i := by omega
    exact hout (i - (cursor.toNat - base.toNat)) (by omega) (haddr ▸ hi)
  · exact ⟨bytes, (BTreeMap.mem_insert ..).mpr (Or.inr ⟨hmem, hbase⟩), fun _ _ => rfl⟩

/- The bytes outside the range of a write, whose addresses are taken modulo `2^64`
as the cursor is. -/
theorem writeLoop_frame (b : Build) (data : List U8) (fuel : ℕ) (cursor : U64) (idx : ℕ)
    (m : InMemGuest) :
    (writeLoop b data fuel cursor idx m).2.layout = m.layout ∧
      SameBytes {a | ∀ j < data.length - idx, a % 2 ^ 64 ≠ (cursor.toNat + j) % 2 ^ 64} m
        (writeLoop b data fuel cursor idx m).2 := by
  have hcursor := cursor.isLt
  have hinv := writeLoop_invariant b data
    (P := fun cursor' idx' m' => idx ≤ idx' ∧
      cursor'.toNat = (cursor.toNat + (idx' - idx)) % 2 ^ 64 ∧ m'.layout = m.layout ∧
      SameBytes {a | ∀ j < data.length - idx, a % 2 ^ 64 ≠ (cursor.toNat + j) % 2 ^ 64} m m')
    ?_ fuel cursor idx m ⟨le_refl idx, by omega, rfl, SameBytes.refl _ m⟩
  · obtain ⟨-, -, -, -, hlay, hsame⟩ := hinv
    exact ⟨hlay, hsame⟩
  · intro cursor' idx' m' base bytes chunk m₁ hmore hr hlen hm₁ hlay h
    obtain ⟨hidx, hat, hlay', hsame⟩ := h
    refine ⟨by omega, ?_, hlay.trans hlay', hsame.trans ?_⟩
    · rw [toNat_add_ofNat, hat]
      omega
    · rw [hm₁]
      apply sameBytes_patch hr (by omega)
      intro j hj hkeep
      exact hkeep (idx' - idx + j) (by omega) (by omega)

theorem writeLoop_err_len (b : Build) {data : List U8} {fuel : ℕ} {cursor : U64} {idx : ℕ}
    {m : InMemGuest} {e : GuestMemError} (h : (writeLoop b data fuel cursor idx m).1 = .err e) :
    0 < e.len ∧ idx + e.len ≤ data.length := by
  induction fuel generalizing cursor idx m with
  | zero =>
    rw [writeLoop] at h
    split_ifs at h
    cases h
  | succ fuel ih =>
    by_cases hmore : idx < data.length
    swap
    · rw [writeLoop_done b data _ cursor hmore] at h
      cases h
    cases hr : m.region cursor with
    | none =>
      rw [writeLoop_none b data fuel cursor hmore hr] at h
      cases h
      show 0 < data.length - idx ∧ idx + (data.length - idx) ≤ data.length
      omega
    | some r =>
      obtain ⟨base, bytes⟩ := r
      obtain ⟨chunk, m₁, -, -, -, -, hnext⟩ := writeLoop_next b data fuel cursor hmore hr
      rcases hnext with ⟨hrun, -⟩ | ⟨hrun, -⟩
      · rw [hrun] at h
        have hlen := ih h
        omega
      · rw [hrun] at h
        cases h

/- One pass of a failed write copies to the end of the region, since the error is
still to come. -/
theorem chunk_to_end {n k avail len : ℕ} (hk : k = min n avail) (hlen : 0 < len)
    (hrest : k + len ≤ n) : k = avail := by
  omega

theorem take_chunk {data chunk : List U8} {idx n : ℕ}
    (hsplit : data.drop idx = chunk ++ data.drop (idx + chunk.length)) (hn : idx + chunk.length ≤ n) :
    (data.drop idx).take (n - idx) =
      chunk ++ (data.drop (idx + chunk.length)).take (n - (idx + chunk.length)) := by
  rw [hsplit, List.take_append, List.take_of_length_le (by omega), Nat.sub_sub]

/- A chunk that the rest of the write leaves alone is what a read finds there. -/
theorem readLoop_copied (b : Build) {m m' : InMemGuest} {cursor base : U64} {bytes chunk : List U8}
    (hr : m.region cursor = some (base, bytes))
    (hk : chunk.length = bytes.length - (cursor.toNat - base.toNat)) (hlay : m'.layout = m.layout)
    (hkept : ∃ bytes', (base, bytes') ∈ m'.bytes.entries ∧ ∀ i < chunk.length,
      bytes'[cursor.toNat - base.toNat + i]? = chunk[i]?)
    {len : ℕ} {out : List U8} (hmore : out.length < len) (hfit : chunk.length ≤ len - out.length)
    (fuel : ℕ) :
    readLoop b m' len (fuel + 1) cursor out =
      (b.add cursor (BitVec.ofNat 64 chunk.length) >>= fun cursor =>
        readLoop b m' len fuel cursor (out ++ chunk)) := by
  obtain ⟨bytes', hmem', hsame⟩ := hkept
  obtain ⟨bytes'', hr', hlen'⟩ := region_of_layout hlay hr
  obtain ⟨hmem'', -, -⟩ := region_eq_some m' cursor base bytes'' hr'
  obtain rfl : bytes'' = bytes' := congrArg Prod.snd (m'.bytes.key_unique hmem'' hmem' rfl)
  obtain ⟨chunk', hchunk', hlenc, hstep⟩ := readLoop_step b m' len fuel cursor base out bytes'' hmore hr'
  have heq : chunk' = chunk := by
    apply List.ext_getElem (by omega)
    intro i hi hi'
    rw [← Option.some_inj, ← List.getElem?_eq_getElem hi, ← List.getElem?_eq_getElem hi',
      ← hsame i hi', hchunk', List.getElem?_take_of_lt (by omega), List.getElem?_drop]
  rw [hstep, heq]

/- The rest of a write leaves the chunk just copied alone: its range is shorter than
the address space, so it does not come around. -/
theorem writeLoop_keeps_chunk (b : Build) {data : List U8} (hdata : data.length ≤ isizeMax)
    (fuel : ℕ) {cursor base : U64} {idx : ℕ} {m : InMemGuest} {bytes chunk : List U8}
    (hle : base.toNat ≤ cursor.toNat)
    (hfit : cursor.toNat - base.toNat + chunk.length ≤ bytes.length)
    (hidx : idx + chunk.length ≤ data.length)
    (hmem : (base, patch bytes (cursor.toNat - base.toNat) chunk) ∈ m.bytes.entries) :
    ∃ bytes', (base, bytes') ∈ (writeLoop b data fuel (cursor + BitVec.ofNat 64 chunk.length)
        (idx + chunk.length) m).2.bytes.entries ∧
      ∀ i < chunk.length, bytes'[cursor.toNat - base.toNat + i]? = chunk[i]? := by
  obtain ⟨-, hframe⟩ := writeLoop_frame b data fuel (cursor + BitVec.ofNat 64 chunk.length)
    (idx + chunk.length) m
  obtain ⟨bytes', hmem', hsame⟩ := hframe base _ hmem
  refine ⟨bytes', hmem', fun i hi => ?_⟩
  rw [hsame, getElem?_patch hfit, if_pos (by omega), Nat.add_sub_cancel_left]
  intro j hj
  unfold isizeMax at hdata
  rw [toNat_add_ofNat]
  omega

/- What a failed write copied can be read back. -/
theorem writeLoop_readBack (b : Build) {data : List U8} (hdata : data.length ≤ isizeMax)
    {fuel : ℕ} {cursor : U64} {idx : ℕ} {m : InMemGuest} {e : GuestMemError}
    (h : (writeLoop b data fuel cursor idx m).1 = .err e) {out : List U8} (hout : out.length = idx)
    {fuel' : ℕ} (hfuel : data.length - e.len - idx ≤ fuel') :
    readLoop b (writeLoop b data fuel cursor idx m).2 (data.length - e.len) fuel' cursor out =
      .ok (out ++ (data.drop idx).take (data.length - e.len - idx)) := by
  induction fuel generalizing cursor idx m out fuel' with
  | zero =>
    rw [writeLoop] at h
    split_ifs at h
    cases h
  | succ fuel ih =>
    obtain ⟨hpos, hle⟩ := writeLoop_err_len b h
    have hmore : idx < data.length := by omega
    cases hr : m.region cursor with
    | none =>
      rw [writeLoop_none b data fuel cursor hmore hr] at h ⊢
      cases h
      simp only at hle ⊢
      rw [readLoop_done b _ _ _ _ _ (by omega), show data.length - (data.length - idx) - idx = 0 by omega,
        List.take_zero, List.append_nil]
    | some r =>
      obtain ⟨base, bytes⟩ := r
      obtain ⟨chunk, m₁, hlen, hsplit, hm₁, hlay, hnext⟩ := writeLoop_next b data fuel cursor hmore hr
      rcases hnext with ⟨hrun, hadd⟩ | ⟨hrun, -⟩
      swap
      · rw [hrun] at h
        cases h
      rw [hrun] at h ⊢
      obtain ⟨hpos', hle'⟩ := writeLoop_err_len b h
      obtain ⟨hmem, hlo, hreach⟩ := region_eq_some m cursor base bytes hr
      have hk := chunk_to_end hlen hpos (by omega)
      obtain ⟨hlay', -⟩ := writeLoop_frame b data fuel (cursor + BitVec.ofNat 64 chunk.length)
        (idx + chunk.length) m₁
      have hfit : cursor.toNat - base.toNat + chunk.length ≤ bytes.length := by omega
      have hmem₁ : (base, patch bytes (cursor.toNat - base.toNat) chunk) ∈ m₁.bytes.entries := by
        rw [hm₁]
        exact (BTreeMap.mem_insert ..).mpr (Or.inl rfl)
      have hidx' : idx + chunk.length ≤ data.length := by omega
      have hkept := writeLoop_keeps_chunk b hdata fuel hlo hfit hidx' hmem₁
      obtain ⟨f, rfl⟩ : ∃ f, fuel' = f + 1 := ⟨fuel' - 1, by omega⟩
      rw [readLoop_copied b hr hk (hlay'.trans hlay) hkept (by omega) (by omega), hadd,
        Outcome.ok_bind, ih h (by rw [List.length_append, hout]) (by omega),
        take_chunk hsplit (by omega), List.append_assoc]

theorem readLoop_extends (b : Build) (m : InMemGuest) (len : ℕ) {fuel : ℕ} {cursor : U64}
    {out bs : List U8} (h : readLoop b m len fuel cursor out = .ok bs) : out <+: bs := by
  induction fuel generalizing cursor out with
  | zero =>
    rw [readLoop] at h
    split_ifs at h
    cases h
    exact List.prefix_refl _
  | succ fuel ih =>
    by_cases hmore : out.length < len
    swap
    · rw [readLoop_done b m len _ cursor out hmore] at h
      cases h
      exact List.prefix_refl _
    cases hr : m.region cursor with
    | none =>
      rw [readLoop, if_pos hmore] at h
      simp only [hr] at h
      cases h
    | some r =>
      obtain ⟨chunk, -, -, hstep⟩ := readLoop_step b m len fuel cursor r.1 out r.2 hmore hr
      rw [hstep] at h
      obtain ⟨next, -, hrest⟩ := Outcome.bind_eq_ok.mp h
      exact (List.prefix_append out chunk).trans (ih hrest)

theorem chunk_eq_of_prefix {out chunk chunk' rest : List U8} (hlen : chunk'.length = chunk.length)
    (h : out ++ chunk' <+: out ++ (chunk ++ rest)) : chunk' = chunk := by
  rw [List.prefix_append_right_inj] at h
  have hpre := List.prefix_of_prefix_length_le h (List.prefix_append chunk rest) hlen.le
  exact hpre.eq_of_length hlen

theorem writeLoop_same (b : Build) {data : List U8} {fuel : ℕ} {cursor : U64} {idx : ℕ}
    {m : InMemGuest} {e : GuestMemError} (h : (writeLoop b data fuel cursor idx m).1 = .err e)
    {out : List U8} (hout : out.length = idx) {fuel' : ℕ}
    (hread : readLoop b m (data.length - e.len) fuel' cursor out =
      .ok (out ++ (data.drop idx).take (data.length - e.len - idx))) :
    (writeLoop b data fuel cursor idx m).2 = m := by
  induction fuel generalizing cursor idx m out fuel' with
  | zero =>
    rw [writeLoop]
    split_ifs <;> rfl
  | succ fuel ih =>
    obtain ⟨hpos, hle⟩ := writeLoop_err_len b h
    have hmore : idx < data.length := by omega
    cases hr : m.region cursor with
    | none => rw [writeLoop_none b data fuel cursor hmore hr]
    | some r =>
      obtain ⟨base, bytes⟩ := r
      obtain ⟨chunk, m₁, hlen, hsplit, hm₁, hlay, hnext⟩ := writeLoop_next b data fuel cursor hmore hr
      rcases hnext with ⟨hrun, hadd⟩ | ⟨hrun, -⟩
      swap
      · rw [hrun] at h
        cases h
      rw [hrun] at h ⊢
      obtain ⟨hpos', hle'⟩ := writeLoop_err_len b h
      obtain ⟨hmem, -, hreach⟩ := region_eq_some m cursor base bytes hr
      have hk := chunk_to_end hlen hpos (by omega)
      have hmore' : out.length < data.length - e.len := by omega
      cases fuel' with
      | zero =>
        rw [readLoop, if_pos hmore'] at hread
        cases hread
      | succ f =>
        obtain ⟨chunk', hchunk', hlenc, hstep⟩ := readLoop_step b m (data.length - e.len) f cursor base
          out bytes hmore' hr
        have hlen' : chunk'.length = chunk.length := by omega
        rw [hstep, hlen', hadd, Outcome.ok_bind] at hread
        -- the chunk read and the chunk written start the same list
        rw [take_chunk hsplit (by omega)] at hread
        have hsame : chunk' = chunk := chunk_eq_of_prefix hlen' (readLoop_extends b m _ hread)
        have hm : m₁ = m := by
          rw [hm₁, ← hsame, hchunk', patch_self, m.bytes.insert_self hmem]
        rw [hm] at h ⊢
        have hout' : (out ++ chunk).length = idx + chunk.length := by rw [List.length_append, hout]
        rw [hsame, ← List.append_assoc] at hread
        exact ih h hout' hread

theorem write_err_iff (b : Build) (m : InMemGuest) (addr : U64) {data : List U8}
    (hdata : data.length ≤ isizeMax) (e : GuestMemError) :
    (write b addr data m).1 = .err e ↔ read b m addr data.length = .err e := by
  have hvoid : (write b addr data m).1 = (readLoop b m data.length data.length addr []).void :=
    writeLoop_void b data data.length addr List.length_nil m
  rw [hvoid, Outcome.void_eq_err, read, reserve_eq _ hdata, Outcome.ok_bind]

theorem read_after_failed_write (b : Build) {m : InMemGuest} {addr : U64} {data : List U8}
    (hdata : data.length ≤ isizeMax) {e : GuestMemError} (h : (write b addr data m).1 = .err e) :
    read b (write b addr data m).2 addr (data.length - e.len) =
      .ok (data.take (data.length - e.len)) := by
  unfold read
  rw [reserve_eq _ (by omega), Outcome.ok_bind]
  exact writeLoop_readBack b hdata h List.length_nil (Nat.sub_le _ _)

theorem failed_write_same (b : Build) {m : InMemGuest} {addr : U64} {data : List U8}
    {e : GuestMemError} (h : (write b addr data m).1 = .err e)
    (hread : read b m addr (data.length - e.len) = .ok (data.take (data.length - e.len))) :
    (write b addr data m).2 = m := by
  unfold read at hread
  obtain ⟨_, -, hread⟩ := Outcome.bind_eq_ok.mp hread
  exact writeLoop_same b h List.length_nil hread

end InMemGuest

/-- A failed write of the memory `m` leaves every read as it was. -/
def FailsClean {M : Type} [GuestMemory M] (b : Build) (m : M) (addr : U64) (data : List U8) : Prop :=
  ∀ e m', GuestMemory.write b addr data m = (.err e, m') →
    ∀ a n, GuestMemory.read b m' a n = GuestMemory.read b m a n

theorem UnicornGuest.read_congr {U : Type} [LawfulUnicorn U] (b : Build) {g g' : UnicornGuest U}
    (h : LawfulUnicorn.space g'.uc = LawfulUnicorn.space g.uc) (a : U64) (n : ℕ) :
    UnicornGuest.read b g' a n = UnicornGuest.read b g a n := by
  unfold UnicornGuest.read
  congr 1
  funext _
  cases hold : Unicorn.memRead g.uc a n with
  | ok buf =>
    have hnew : Unicorn.memRead g'.uc a n = .ok buf := by
      rw [LawfulUnicorn.memRead_ok_iff, h]
      exact (LawfulUnicorn.memRead_ok_iff ..).mp hold
    rw [hnew]
  | error e =>
    cases hnew : Unicorn.memRead g'.uc a n with
    | ok buf =>
      rw [LawfulUnicorn.memRead_ok_iff, h, ← LawfulUnicorn.memRead_ok_iff, hold] at hnew
      cases hnew
    | error e' => rfl

theorem UnicornGuest.failsClean {U : Type} [LawfulUnicorn U] (b : Build) (g : UnicornGuest U)
    (addr : U64) (data : List U8) : FailsClean b g addr data := by
  intro e g' hrun a n
  apply UnicornGuest.read_congr
  have hwrite : (match Unicorn.memWrite addr data g.uc with
    | (.ok _, uc) => ((.ok (), ⟨uc⟩) : Outcome GuestMemError Unit × UnicornGuest U)
    | (.error _, uc) => (.err ⟨addr, data.length⟩, ⟨uc⟩)) = (.err e, g') := by
    rw [← hrun]
    show _ = UnicornGuest.write b addr data g
    unfold UnicornGuest.write Act.zoom engineCall
    rcases Unicorn.memWrite addr data g.uc with ⟨r, uc⟩
    cases r <;> rfl
  rcases hcall : Unicorn.memWrite addr data g.uc with ⟨r, uc⟩
  rw [hcall] at hwrite
  cases r with
  | ok u => cases hwrite
  | error msg =>
    cases hwrite
    exact LawfulUnicorn.space_memWrite_error hcall

/-- A failed write of the in-memory guest is clean exactly when the bytes up to the
first unmapped address were in memory before; on the engine it always is. -/
theorem failed_write_iff (b : Build) (m : InMemGuest) (addr : U64) (data : List U8)
    (hdata : data.length ≤ isizeMax) :
    (FailsClean b m addr data ↔ ∀ e, InMemGuest.read b m addr data.length = .err e →
      InMemGuest.read b m addr (data.length - e.len) = .ok (data.take (data.length - e.len))) ∧
    ∀ (U : Type) [LawfulUnicorn U] (g : UnicornGuest U), FailsClean b g addr data := by
  refine ⟨⟨?_, ?_⟩, fun U _ g => UnicornGuest.failsClean b g addr data⟩
  · intro h e hread
    have hfail := (InMemGuest.write_err_iff b m addr hdata e).mpr hread
    rw [← InMemGuest.read_after_failed_write b hdata hfail]
    exact (h e _ (Prod.ext hfail rfl) addr _).symm
  · intro h e m' hrun a n
    have hfail : (InMemGuest.write b addr data m).1 = .err e := congrArg Prod.fst hrun
    have hsame := InMemGuest.failed_write_same b hfail
      (h e ((InMemGuest.write_err_iff b m addr hdata e).mp hfail))
    have hm' : (InMemGuest.write b addr data m).2 = m' := congrArg Prod.snd hrun
    rw [← hm', hsame]

def eightBytes : InMemGuest := ⟨BTreeMap.empty.insert 0x1000 (List.replicate 8 0)⟩

theorem outside_write_clean :
    (FailsClean .debug eightBytes 0x2000 [1] ↔
      ∀ e, InMemGuest.read .debug eightBytes 0x2000 1 = .err e →
        InMemGuest.read .debug eightBytes 0x2000 (1 - e.len) = .ok ([1].take (1 - e.len))) ∧
    ∀ (U : Type) [LawfulUnicorn U] (g : UnicornGuest U), FailsClean .debug g 0x2000 [1] :=
  failed_write_iff .debug eightBytes 0x2000 [1] (by decide)

/- Seven bytes at 0x1004 fail at 0x1008, with the first four in place. -/
theorem straddling_write_dirty : ¬FailsClean .release eightBytes 0x1004 [1, 2, 3, 4, 5, 6, 7] := by
  intro h
  have hfail : (InMemGuest.write .release 0x1004 [1, 2, 3, 4, 5, 6, 7] eightBytes).1 =
      .err ⟨0x1008, 3⟩ := by decide +kernel
  have hread := h _ _ (Prod.ext hfail rfl) 0x1004 1
  revert hread
  decide +kernel

end WinVpwn.Vkernel

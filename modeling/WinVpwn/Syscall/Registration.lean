import WinVpwn.Syscall.Dispatch
import WinVpwn.Lib.Registry

/-!
# Dispatch as a map from numbers to handlers

The handler vector is a registry keyed by `number`. What a dispatcher answers
depends on the registrations only through the handler registered last under
each number.
-/

namespace WinVpwn.Syscall.Dispatch
open Rust WinVpwn.Vkernel WinVpwn.Trace
variable {M : Type}

/-- A dispatcher after the registrations `hs`, made in that order. -/
def registered (trace : Option TraceSink) (hs : List (SyscallHandler M)) : Dispatch M :=
  hs.foldl register { new with trace := trace }

theorem registered_snoc (trace : Option TraceSink) (hs : List (SyscallHandler M))
    (h : SyscallHandler M) :
    registered trace (hs ++ [h]) = (registered trace hs).register h :=
  List.foldl_concat ..

theorem registered_handlers (trace : Option TraceSink) (hs : List (SyscallHandler M)) :
    (registered trace hs).handlers = Registry.pushAll SyscallHandler.number hs := by
  induction hs using List.reverseRec with
  | nil => rfl
  | append_singleton hs h ih =>
    rw [registered_snoc, Registry.pushAll_snoc, ← ih]
    rfl

theorem registered_trace (trace : Option TraceSink) (hs : List (SyscallHandler M)) :
    (registered trace hs).trace = trace := by
  induction hs using List.reverseRec with
  | nil => rfl
  | append_singleton hs h ih =>
    rw [registered_snoc]
    exact ih

theorem find_registered (trace : Option TraceSink) (hs : List (SyscallHandler M)) (nr : ℤ) :
    (registered trace hs).find nr = Registry.last SyscallHandler.number hs nr := by
  unfold find
  rw [registered_handlers]
  exact Registry.find_pushAll SyscallHandler.number hs nr

theorem find_reordered (trace : Option TraceSink) {hs hs' : List (SyscallHandler M)}
    (h : Registry.Reordered SyscallHandler.number hs hs') (nr : ℤ) :
    (registered trace hs).find nr = (registered trace hs').find nr := by
  rw [find_registered, find_registered, h.last_eq]

theorem unique_registered (trace : Option TraceSink) (hs : List (SyscallHandler M)) :
    ((registered trace hs).handlers.map SyscallHandler.number).Nodup := by
  rw [registered_handlers]
  exact Registry.unique_pushAll SyscallHandler.number hs

/-! ### The list of implemented numbers -/

/- No number is held twice, so `dedup` has nothing to drop. -/
theorem implemented_eq {d : Dispatch M} (h : (d.handlers.map SyscallHandler.number).Nodup) :
    d.implemented = (d.handlers.map SyscallHandler.number).insertionSort (· ≤ ·) := by
  unfold implemented
  rw [List.destutter_eq_self_iff]
  exact ((List.perm_insertionSort _ _).nodup_iff.mpr h).isChain

theorem implemented_increasing {d : Dispatch M}
    (h : (d.handlers.map SyscallHandler.number).Nodup) : d.implemented.Pairwise (· < ·) := by
  rw [implemented_eq h]
  have hsorted := List.pairwise_insertionSort (· ≤ ·) (d.handlers.map SyscallHandler.number)
  have hnodup := (List.perm_insertionSort (· ≤ ·) _).nodup_iff.mpr h
  exact (hsorted.and hnodup).imp fun hab => lt_of_le_of_ne hab.1 hab.2

theorem mem_implemented (trace : Option TraceSink) (hs : List (SyscallHandler M)) (nr : ℤ) :
    nr ∈ (registered trace hs).implemented ↔ ∃ h ∈ hs, h.number = nr := by
  rw [implemented_eq (unique_registered trace hs), List.mem_insertionSort, registered_handlers,
    Registry.mem_keys_pushAll, List.mem_map]

/-! ### Two dispatchers that find the same handlers -/

/-- The states a call cannot tell apart. -/
def Alike (s t : Dispatch M × Context M) : Prop :=
  (∀ nr, s.1.find nr = t.1.find nr) ∧ s.1.trace = t.1.trace ∧ s.2 = t.2

theorem dispatch_find (d : Dispatch M) (ctx : Context M) (regs : SyscallRegs) (nr : ℤ) :
    (dispatch regs (d, ctx)).2.1.find nr = d.find nr := by
  unfold find
  rw [dispatch_handlers]

theorem Alike.dispatch {s t : Dispatch M × Context M} (h : Alike s t) (regs : SyscallRegs) :
    (dispatch regs s).1 = (dispatch regs t).1
      ∧ Alike (dispatch regs s).2 (dispatch regs t).2 := by
  obtain ⟨d, ctx⟩ := s
  obtain ⟨d', ctx'⟩ := t
  obtain ⟨hfind, htrace, rfl⟩ := h
  have hhandle := handle_congr hfind regs
  refine ⟨?_, ?_, ?_, ?_⟩
  · rw [dispatch_fst, dispatch_fst, hhandle]
  · intro nr
    rw [dispatch_find, dispatch_find]
    exact hfind nr
  · have htrace : d.trace = d'.trace := htrace
    rw [dispatch_trace, dispatch_trace, hhandle, nameOf_congr hfind, htrace]
  · rw [dispatch_ctx, dispatch_ctx, hhandle]

theorem Alike.registered {hs hs' : List (SyscallHandler M)}
    (h : Registry.Reordered SyscallHandler.number hs hs') (trace : Option TraceSink)
    (ctx : Context M) : Alike (registered trace hs, ctx) (registered trace hs', ctx) := by
  refine ⟨find_reordered trace h, ?_, rfl⟩
  rw [registered_trace, registered_trace]

/-! ### Last registration wins -/

/-- `d` answers for the registrations `hs`: under each number the handler registered
last, and `-ENOSYS` under a number that was never registered. -/
structure LastWins (hs : List (SyscallHandler M)) (d : Dispatch M) : Prop where
  unique : (d.handlers.map SyscallHandler.number).Nodup
  selects : ∀ pre h post, hs = pre ++ h :: post → (∀ h' ∈ post, h'.number ≠ h.number) →
    d.get h.number = some h
      ∧ ∀ ctx regs, regs.syscallNr = h.number →
        (dispatch regs (d, ctx)).1 = (h.handle regs ctx).1
          ∧ (dispatch regs (d, ctx)).2.2 = (h.handle regs ctx).2
  unknown : ∀ nr, (∀ h ∈ hs, h.number ≠ nr) →
    d.get nr = none
      ∧ ∀ ctx regs, regs.syscallNr = nr →
        (dispatch regs (d, ctx)).1 = .ok (.ret (err ENOSYS))
          ∧ (dispatch regs (d, ctx)).2.2 = ctx
  increasing : d.implemented.Pairwise (· < ·)
  implemented : ∀ nr, nr ∈ d.implemented ↔ ∃ h ∈ hs, h.number = nr

/-- Two dispatchers answer alike: to `get`, to `implemented` and to every run of calls,
with the context and the trace it leaves. -/
structure SameAnswers (d d' : Dispatch M) : Prop where
  get : ∀ nr, d.get nr = d'.get nr
  implemented : d.implemented = d'.implemented
  runs : ∀ calls ctx,
    (Act.runAll dispatch calls (d, ctx)).1 = (Act.runAll dispatch calls (d', ctx)).1
      ∧ (Act.runAll dispatch calls (d, ctx)).2.2 = (Act.runAll dispatch calls (d', ctx)).2.2
      ∧ (Act.runAll dispatch calls (d, ctx)).2.1.trace
        = (Act.runAll dispatch calls (d', ctx)).2.1.trace

theorem registered_selects (trace : Option TraceSink) (pre post : List (SyscallHandler M))
    (h : SyscallHandler M) (hlast : ∀ h' ∈ post, h'.number ≠ h.number) :
    (registered trace (pre ++ h :: post)).find h.number = some h := by
  rw [find_registered]
  exact Registry.last_split SyscallHandler.number hlast

theorem registered_unknown (trace : Option TraceSink) (hs : List (SyscallHandler M)) (nr : ℤ)
    (h : ∀ h ∈ hs, h.number ≠ nr) : (registered trace hs).find nr = none := by
  rw [find_registered]
  exact (Registry.last_eq_none SyscallHandler.number).mpr h

theorem handle_of_find {d : Dispatch M} {h : SyscallHandler M} {regs : SyscallRegs}
    (hfind : d.find regs.syscallNr = some h) : d.handle regs = h.handle regs := by
  unfold handle
  rw [hfind]

theorem handle_of_unknown {d : Dispatch M} {regs : SyscallRegs}
    (hfind : d.find regs.syscallNr = none) (ctx : Context M) :
    d.handle regs ctx = (.ok (.ret (err ENOSYS)), ctx) := by
  unfold handle
  rw [hfind]
  rfl

theorem registered_lastWins (trace : Option TraceSink) (hs : List (SyscallHandler M)) :
    LastWins hs (registered trace hs) := by
  constructor
  case unique => exact unique_registered trace hs
  case selects =>
    intro pre h post hsplit hlast
    have hfind : (registered trace hs).find h.number = some h := by
      rw [hsplit]
      exact registered_selects trace pre post h hlast
    refine ⟨hfind, ?_⟩
    intro ctx regs hnr
    have hhandle := handle_of_find (hnr.symm ▸ hfind)
    rw [dispatch_fst, dispatch_ctx, hhandle]
    exact ⟨rfl, rfl⟩
  case unknown =>
    intro nr hnone
    have hfind := registered_unknown trace hs nr hnone
    refine ⟨hfind, ?_⟩
    intro ctx regs hnr
    have hhandle := handle_of_unknown (hnr.symm ▸ hfind) ctx
    rw [dispatch_fst, dispatch_ctx, hhandle]
    exact ⟨rfl, rfl⟩
  case increasing => exact implemented_increasing (unique_registered trace hs)
  case implemented => exact mem_implemented trace hs

theorem implemented_reordered {hs hs' : List (SyscallHandler M)} (trace : Option TraceSink)
    (h : hs.Perm hs') : (registered trace hs).implemented = (registered trace hs').implemented := by
  apply List.Pairwise.eq_of_mem_iff (r := (· < ·))
  · exact implemented_increasing (unique_registered trace hs)
  · exact implemented_increasing (unique_registered trace hs')
  · intro nr
    rw [mem_implemented, mem_implemented]
    simp only [h.mem_iff]

theorem registered_reordered {hs hs' : List (SyscallHandler M)} (trace : Option TraceSink)
    (h : Registry.Reordered SyscallHandler.number hs hs') :
    SameAnswers (registered trace hs) (registered trace hs') := by
  constructor
  case get => exact find_reordered trace h
  case implemented => exact implemented_reordered trace h.1
  case runs =>
    intro calls ctx
    have hrun := Act.runAll_bisim (f := dispatch) (g := dispatch) (R := Alike) (S := Eq)
      (P := fun _ => True) (fun s t regs hst _ => hst.dispatch regs)
      (fun regs (_ : regs ∈ calls) => trivial) (Alike.registered h trace ctx)
    obtain ⟨hvals, -, htrace, hctx⟩ := hrun
    exact ⟨List.forall₂_eq_eq_eq ▸ hvals, hctx, htrace⟩

/-- Dispatch is the last-wins map of its registrations, and only the order among the
handlers of one number counts. -/
theorem registered_last_wins (trace : Option TraceSink) (hs : List (SyscallHandler M)) :
    LastWins hs (registered trace hs)
      ∧ ∀ hs', Registry.Reordered SyscallHandler.number hs hs' →
        SameAnswers (registered trace hs) (registered trace hs') :=
  ⟨registered_lastWins trace hs, fun _ => registered_reordered trace⟩

/- The number 7 is registered twice, with 9 in between; moving 9 to the front keeps the
order of the two. -/
def constHandler (number : ℤ) (name : String) (ret : ℤ) : SyscallHandler Unit :=
  ⟨number, name, fun _ => pure (.ret ret)⟩

def sevenTwice : List (SyscallHandler Unit) :=
  [constHandler 7 "first" 1, constHandler 9 "other" 2, constHandler 7 "second" 3]

def sevenTwiceMoved : List (SyscallHandler Unit) :=
  [constHandler 9 "other" 2, constHandler 7 "first" 1, constHandler 7 "second" 3]

theorem sevenTwice_reordered :
    Registry.Reordered SyscallHandler.number sevenTwice sevenTwiceMoved := by
  refine ⟨List.Perm.swap .., ?_⟩
  intro nr
  simp only [sevenTwice, sevenTwiceMoved, constHandler, List.filter_cons]
  by_cases h : (7 : ℤ) = nr
  · subst h
    rfl
  · simp [h]

theorem sevenTwice_last_wins :
    (registered none sevenTwice).get 7 = some (constHandler 7 "second" 3)
      ∧ (registered none sevenTwice).implemented = [7, 9]
      ∧ SameAnswers (registered none sevenTwice) (registered none sevenTwiceMoved) :=
  ⟨rfl, by decide, (registered_last_wins none sevenTwice).2 _ sevenTwice_reordered⟩

end WinVpwn.Syscall.Dispatch

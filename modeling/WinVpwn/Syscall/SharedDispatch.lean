import Mathlib.Logic.Relation
import WinVpwn.Syscall.DispatchImpl
import WinVpwn.Syscall.TraceComplete

/-!
# One dispatcher under several threads

`dispatch` takes the dispatcher by a shared reference, its handlers are `Send + Sync`
and its sink is behind a mutex, so threads with a context each can dispatch at the
same time. A call is then two steps, the handler on the thread's own context and the
record under the mutex, and anything may come between them.

The dispatcher is the one of stage 1. Its handlers are unit structs: with nothing behind
`&self` they share nothing, and a call is a function of the registers and of the context,
whose memory the thread holds by `&mut`. A handler with a state of its own would not be.
-/

namespace WinVpwn.Syscall
open Rust WinVpwn.Vkernel WinVpwn.Trace

/-- A thread with its context, the calls it has yet to make, the results it got, and
between the two steps of a call what it is about to record. -/
structure Caller (M : Type) where
  todo : List SyscallRegs
  ctx : Context M
  pending : Option Invocation
  results : List (Outcome DispatchError SyscallOutcome)

/-- The threads and the sink; a reader may drain a clone of the sink at any time. -/
structure Shared (ι M : Type) where
  callers : ι → Caller M
  sink : Collected

/-- The calls still made after one with this result: a panic ends the thread. -/
def afterwards (o : Outcome DispatchError SyscallOutcome) (todo : List SyscallRegs) :
    List SyscallRegs :=
  match o with
  | .fault _ => []
  | _ => todo

/-- The thread after the handler of its next call `r`. -/
def Caller.call {M : Type} (c : Caller M) (d : Dispatch M) (r : SyscallRegs)
    (todo : List SyscallRegs) : Caller M where
  todo := afterwards (d.handle r c.ctx).1 todo
  ctx := (d.handle r c.ctx).2
  pending := d.invocation? r (d.handle r c.ctx).1
  results := c.results ++ [(d.handle r c.ctx).1]

section Shared
variable {ι M : Type} [DecidableEq ι]

def Shared.start (programs : ι → List SyscallRegs) (ctxs : ι → Context M) : Shared ι M :=
  ⟨fun i => ⟨programs i, ctxs i, none, []⟩, Collected.start⟩

/-- A thread or the reader takes its turn. -/
inductive Turn [GuestMemory M] (b : Build) : Shared ι M → Shared ι M → Prop
  | handle (s : Shared ι M) (i : ι) (r : SyscallRegs) (todo : List SyscallRegs)
    (hnext : (s.callers i).todo = r :: todo) (hidle : (s.callers i).pending = none) :
    Turn b s ⟨Function.update s.callers i ((s.callers i).call (stage1 b none) r todo), s.sink⟩
  | record (s : Shared ι M) (i : ι) (c : Invocation) (hpending : (s.callers i).pending = some c) :
    Turn b s ⟨Function.update s.callers i { s.callers i with pending := none },
      s.sink.step (.record (some i) c)⟩
  | drain (s : Shared ι M) : Turn b s ⟨s.callers, s.sink.step (.drain (none : Option ι))⟩

/-! ### What each thread sees -/

/-- What the thread `i` recorded, in order. -/
def ownInvocations (i : ι) (calls : List (SinkCall (Option ι))) : List Invocation :=
  calls.filterMap fun
    | .record via c => if via = some i then some c else none
    | .drain _ => none

theorem ownInvocations_record (i j : ι) (calls : List (SinkCall (Option ι))) (c : Invocation) :
    ownInvocations i (calls ++ [.record (some j) c]) =
      ownInvocations i calls ++ if j = i then [c] else [] := by
  unfold ownInvocations
  rw [List.filterMap_append]
  by_cases h : j = i
  · simp [h]
  · simp [h]

theorem ownInvocations_drain (i : ι) (calls : List (SinkCall (Option ι))) :
    ownInvocations i (calls ++ [.drain none]) = ownInvocations i calls := by
  unfold ownInvocations
  simp

/-- The same calls through `dispatch` by a thread that has a sink to itself. -/
def alone (d : Dispatch M) (ctx : Context M) (calls : List SyscallRegs) :
    List (Outcome DispatchError SyscallOutcome) × (Dispatch M × Context M) :=
  Act.runAll Dispatch.dispatch calls (d.setTrace TraceSink.new, ctx)

theorem alone_handlers (d : Dispatch M) (ctx : Context M) (calls : List SyscallRegs) :
    (alone d ctx calls).2.1.handlers = d.handlers := by
  unfold alone
  induction calls using List.reverseRec with
  | nil => rfl
  | append_singleton calls r ih =>
    rw [Act.runAll_snoc]
    exact (Dispatch.dispatch_handlers ..).trans ih

theorem alone_snoc (d : Dispatch M) (ctx : Context M) (calls : List SyscallRegs)
    (r : SyscallRegs) :
    (alone d ctx (calls ++ [r])).1 =
        (alone d ctx calls).1 ++ [(d.handle r (alone d ctx calls).2.2).1] ∧
      (alone d ctx (calls ++ [r])).2.2 = (d.handle r (alone d ctx calls).2.2).2 ∧
      (alone d ctx (calls ++ [r])).2.1.trace = (alone d ctx calls).2.1.trace.map fun sink =>
        ⟨sink.records ++ numberFrom sink.records.length
          (d.invocation? r (d.handle r (alone d ctx calls).2.2).1).toList⟩ := by
  have hhandlers := alone_handlers d ctx calls
  have hhandle := Dispatch.handle_congr (Dispatch.find_congr hhandlers) r
  have hinv := Dispatch.invocation?_congr hhandlers
  unfold alone at *
  rw [Act.runAll_snoc_results, Act.runAll_snoc]
  generalize Act.runAll Dispatch.dispatch calls (d.setTrace TraceSink.new, ctx) = run at *
  obtain ⟨results, d', ctx'⟩ := run
  refine ⟨?_, ?_, ?_⟩
  · rw [Dispatch.dispatch_fst, hhandle]
  · rw [Dispatch.dispatch_ctx, hhandle]
  · rw [Dispatch.dispatch_appends, hhandle, hinv]

/-- The thread has made the calls `done`, and recorded `recorded`: it is where it would
be alone, but for a record it is still to make. -/
structure Served (d : Dispatch M) (program : List SyscallRegs) (init : Context M)
    (recorded : List Invocation) (done : List SyscallRegs) (c : Caller M) : Prop where
  calls : done <+: program
  rest : done ++ c.todo = program ∨ c.todo = [] ∧ ∃ p, c.results.getLast? = some (.fault p)
  results : c.results = (alone d init done).1
  ctx : c.ctx = (alone d init done).2.2
  trace : (alone d init done).2.1.trace =
    some ⟨numberFrom 0 (recorded ++ c.pending.toList)⟩

theorem served_start (d : Dispatch M) (program : List SyscallRegs) (ctx : Context M) :
    Served d program ctx [] [] ⟨program, ctx, none, []⟩ :=
  ⟨List.nil_prefix, .inl rfl, rfl, rfl, rfl⟩

/- The handler's step: alone it is the whole call. -/
theorem Served.call {d : Dispatch M} {program : List SyscallRegs} {ctx : Context M}
    {recorded : List Invocation} {done : List SyscallRegs} {c : Caller M}
    (h : Served d program ctx recorded done c) {r : SyscallRegs} {todo : List SyscallRegs}
    (hnext : c.todo = r :: todo) (hidle : c.pending = none) :
    Served d program ctx recorded (done ++ [r]) (c.call d r todo) := by
  obtain ⟨hresults, hctx, htrace⟩ := alone_snoc d ctx done r
  rw [← h.ctx] at hresults hctx htrace
  have hprogram : done ++ r :: todo = program := by
    rcases h.rest with hrest | ⟨hnil, -⟩
    · rw [← hrest, hnext]
    · rw [hnext] at hnil
      cases hnil
  have hmore : done ++ [r] ++ todo = program := by rw [List.append_assoc]; exact hprogram
  constructor
  case calls => exact ⟨todo, hmore⟩
  case rest =>
    unfold Caller.call
    cases hres : (d.handle r c.ctx).1 with
    | ok o => exact .inl hmore
    | err e => exact .inl hmore
    | fault p => exact .inr ⟨rfl, p, List.getLast?_concat⟩
  case results =>
    rw [hresults, ← h.results]
    rfl
  case ctx =>
    rw [hctx]
    rfl
  case trace =>
    rw [htrace, h.trace, hidle, Option.toList_none, List.append_nil, Option.map_some,
      length_numberFrom, numberFrom_append, Nat.zero_add]
    rfl

theorem Served.record {d : Dispatch M} {program : List SyscallRegs} {ctx : Context M}
    {recorded : List Invocation} {done : List SyscallRegs} {c : Caller M}
    (h : Served d program ctx recorded done c) {call : Invocation}
    (hpending : c.pending = some call) :
    Served d program ctx (recorded ++ [call]) done { c with pending := none } := by
  refine ⟨h.calls, h.rest, h.results, h.ctx, ?_⟩
  rw [h.trace, hpending]
  simp

/-! ### Every interleaving -/

/-- The sink went through `calls`, each thread through its part of them, and nobody but
the threads recorded anything. -/
structure Interleaved (d : Dispatch M) (programs : ι → List SyscallRegs)
    (ctxs : ι → Context M) (calls : List (SinkCall (Option ι))) (s : Shared ι M) : Prop where
  sink : s.sink = Collected.run calls
  owned : ∀ c, SinkCall.record none c ∉ calls
  served : ∀ i, ∃ done, Served d (programs i) (ctxs i) (ownInvocations i calls) done (s.callers i)

theorem interleaved_step [GuestMemory M] {b : Build} {programs : ι → List SyscallRegs}
    {ctxs : ι → Context M} {calls : List (SinkCall (Option ι))} {s s' : Shared ι M}
    (h : Interleaved (stage1 b none) programs ctxs calls s) (hstep : Turn b s s') :
    ∃ calls', Interleaved (stage1 b none) programs ctxs calls' s' := by
  cases hstep with
  | handle i r todo hnext hidle =>
    refine ⟨calls, h.sink, h.owned, fun j => ?_⟩
    obtain ⟨done, hdone⟩ := h.served j
    by_cases hj : j = i
    · subst hj
      refine ⟨done ++ [r], ?_⟩
      dsimp only
      rw [Function.update_self]
      exact hdone.call hnext hidle
    · refine ⟨done, ?_⟩
      dsimp only
      rw [Function.update_of_ne hj]
      exact hdone
  | record i c hpending =>
    refine ⟨calls ++ [.record (some i) c], ?_, fun c' hc => ?_, fun j => ?_⟩
    · rw [Collected.run_snoc, ← h.sink]
    · exact h.owned c' (by simpa using hc)
    obtain ⟨done, hdone⟩ := h.served j
    refine ⟨done, ?_⟩
    rw [ownInvocations_record]
    by_cases hj : j = i
    · subst hj
      rw [if_pos rfl]
      dsimp only
      rw [Function.update_self]
      exact hdone.record hpending
    · rw [if_neg (Ne.symm hj), List.append_nil]
      dsimp only
      rw [Function.update_of_ne hj]
      exact hdone
  | drain =>
    refine ⟨calls ++ [.drain none], ?_, fun c hc => ?_, fun j => ?_⟩
    · rw [Collected.run_snoc, ← h.sink]
    · exact h.owned c (by simpa using hc)
    · rw [ownInvocations_drain]
      exact h.served j

/-- However the threads and a reader of the trace take turns at the stage-1 handlers, each
thread gets the results and the context it would get alone, and what was collected is,
call by call, what the threads recorded, each in the order it would record alone. -/
theorem shared_refines_alone [GuestMemory M] (b : Build) (programs : ι → List SyscallRegs)
    (ctxs : ι → Context M) (s : Shared ι M)
    (hreach : Relation.ReflTransGen (Turn b) (Shared.start programs ctxs) s) :
    ∃ calls, Interleaved (stage1 b none) programs ctxs calls s ∧
      List.Forall₂ (fun r c => r = Invocation.numbered c r.seq) s.sink.all (invocations calls) := by
  have hinter : ∃ calls, Interleaved (stage1 b none) programs ctxs calls s := by
    induction hreach with
    | refl => exact ⟨[], rfl, fun _ => List.not_mem_nil, fun i => ⟨[], served_start _ (programs i) (ctxs i)⟩⟩
    | tail _ hstep ih =>
      obtain ⟨calls, h⟩ := ih
      exact interleaved_step h hstep
  obtain ⟨calls, h⟩ := hinter
  refine ⟨calls, h, ?_⟩
  rw [h.sink]
  exact all_kept calls

end Shared

def exits (who : Bool) : SyscallRegs :=
  SyscallRegs.fromRegs 231 #v[if who then 1 else 2, 0, 0, 0, 0, 0] 0x401000

def exited (who : Bool) : Invocation :=
  ⟨"exit_group", 231, (exits who).args, 0x401000, .exit (.exit (exits who).exitCode)⟩

def idle : Context InMemGuest := ⟨.running, InMemGuest.new, OutputCapture.default⟩

def bothHandled : Shared Bool InMemGuest where
  callers := Function.update
    (Function.update (fun who => ⟨[exits who], idle, none, []⟩) true
      (Caller.call ⟨[exits true], idle, none, []⟩ (stage1 .release none) (exits true) []))
    false (Caller.call ⟨[exits false], idle, none, []⟩ (stage1 .release none) (exits false) [])
  sink := Collected.start

/- The reader comes between the two records. -/
def oneDrained : Shared Bool InMemGuest where
  callers := Function.update bothHandled.callers true
    { bothHandled.callers true with pending := none }
  sink := Collected.run [.record (some true) (exited true), .drain none]

def bothRecorded : Shared Bool InMemGuest where
  callers := Function.update oneDrained.callers false
    { oneDrained.callers false with pending := none }
  sink := Collected.run [.record (some true) (exited true), .drain none,
    .record (some false) (exited false)]

theorem bothRecorded_reached : Relation.ReflTransGen (Turn .release)
    (Shared.start (fun who => [exits who]) fun _ => idle) bothRecorded := by
  have hhandled : Relation.ReflTransGen (Turn .release)
      (Shared.start (fun who => [exits who]) fun _ => idle) bothHandled :=
    .tail (.single (.handle _ true (exits true) [] rfl rfl)) (.handle _ false (exits false) [] rfl rfl)
  have hdrained : Relation.ReflTransGen (Turn .release) bothHandled oneDrained :=
    .tail (.single (.record bothHandled true (exited true) rfl)) (.drain _)
  exact (hhandled.trans hdrained).tail (.record oneDrained false (exited false) rfl)

theorem bothRecorded_interleaved : ∃ calls,
    Interleaved (stage1 .release none) (fun who => [exits who]) (fun _ => idle) calls bothRecorded ∧
      List.Forall₂ (fun r c => r = Invocation.numbered c r.seq) bothRecorded.sink.all
        (invocations calls) :=
  shared_refines_alone .release (fun who => [exits who]) (fun _ => idle) bothRecorded
    bothRecorded_reached

end WinVpwn.Syscall

import Mathlib.Data.List.Forall2
import WinVpwn.Syscall.DispatchImpl
import WinVpwn.Trace.Batches

/-!
# What the attached trace holds

What a call through `dispatch` adds to an attached sink, and the trace of a sequence
of calls, over any handlers. `dispatch` leaves through `?` before it records, so a
call that fails is missing.
-/

namespace WinVpwn.Trace
open Rust WinVpwn.Syscall

/-- The records of the invocations, numbered from `n` on. -/
def numberFrom : ℕ → List Invocation → List TraceRecord
  | _, [] => []
  | n, c :: cs => c.numbered (BitVec.ofNat 64 n) :: numberFrom (n + 1) cs

@[simp] theorem length_numberFrom (n : ℕ) (cs : List Invocation) :
    (numberFrom n cs).length = cs.length := by
  induction cs generalizing n with
  | nil => rfl
  | cons c cs ih => rw [numberFrom, List.length_cons, List.length_cons, ih]

theorem numberFrom_append (n : ℕ) (cs ds : List Invocation) :
    numberFrom n (cs ++ ds) = numberFrom n cs ++ numberFrom (n + cs.length) ds := by
  induction cs generalizing n with
  | nil => rfl
  | cons c cs ih =>
    rw [List.cons_append, numberFrom, numberFrom, List.cons_append, ih, List.length_cons,
      Nat.add_right_comm, Nat.add_assoc]

end WinVpwn.Trace

namespace WinVpwn.Syscall
open Rust WinVpwn.Vkernel WinVpwn.Trace

namespace Dispatch
variable {M : Type}

/-- What a call with this result has recorded: nothing when it failed. -/
def invocation? (d : Dispatch M) (regs : SyscallRegs) :
    Outcome DispatchError SyscallOutcome → Option Invocation
  | .ok o => some ⟨d.nameOf regs.syscallNr, regs.syscallNr, regs.args, regs.rip, o⟩
  | _ => none

theorem find_congr {d d' : Dispatch M} (h : d.handlers = d'.handlers) (nr : ℤ) :
    d.find nr = d'.find nr := by
  unfold find
  rw [h]

theorem invocation?_congr {d d' : Dispatch M} (h : d.handlers = d'.handlers) :
    d.invocation? = d'.invocation? := by
  funext regs result
  unfold invocation?
  rw [nameOf_congr (find_congr h)]

theorem dispatch_appends (d : Dispatch M) (ctx : Context M) (regs : SyscallRegs) :
    (dispatch regs (d, ctx)).2.1.trace = d.trace.map fun sink =>
      ⟨sink.records ++ numberFrom sink.records.length
        (d.invocation? regs (d.handle regs ctx).1).toList⟩ := by
  rw [dispatch_trace]
  cases (d.handle regs ctx).1 with
  | ok o => rfl
  | err e => simp [invocation?, numberFrom]
  | fault p => simp [invocation?, numberFrom]

end Dispatch
end WinVpwn.Syscall

namespace WinVpwn.Syscall
open Rust WinVpwn.Vkernel WinVpwn.Trace

variable {M : Type}

/-- The record a call is due: its number, arguments, `rip` and handler name, and
its return value when it returned one. -/
structure Records (d : Dispatch M) (call : SyscallRegs × Outcome DispatchError SyscallOutcome)
    (rec : TraceRecord) : Prop where
  nr : rec.nr = call.1.syscallNr
  args : rec.args = call.1.args
  rip : rec.rip = call.1.rip
  name : rec.name = d.nameOf call.1.syscallNr
  ret : ∀ v, call.2 = .ok (.ret v) → rec.ret = v

/-- One dispatch after the other with `sink` attached, whatever each returns. -/
def tracedRun (d : Dispatch M) (sink : TraceSink) (ctx : Context M) (calls : List SyscallRegs) :
    List (Outcome DispatchError SyscallOutcome) × (Dispatch M × Context M) :=
  Act.runAll Dispatch.dispatch calls (d.setTrace sink, ctx)

/-- After the run the sink holds one new record for each call, in call order. -/
def TraceComplete (d : Dispatch M) (sink : TraceSink) (ctx : Context M)
    (calls : List SyscallRegs) : Prop :=
  ∃ sink' new, (tracedRun d sink ctx calls).2.1.trace = some sink' ∧
    sink'.records = sink.records ++ new ∧
    List.Forall₂ (Records d) (calls.zip (tracedRun d sink ctx calls).1) new

/-- Every handler the calls reach returns `Ok`, each run on the context the
earlier ones left. -/
def HandlersSucceed (d : Dispatch M) (ctx : Context M) : List SyscallRegs → Prop
  | [] => True
  | r :: rs => match d.find r.syscallNr with
    | none => HandlersSucceed d ctx rs
    | some h => (h.handle r ctx).1.isOk ∧ HandlersSucceed d (h.handle r ctx).2 rs

theorem handlersSucceed_cons (d : Dispatch M) (ctx : Context M) (r : SyscallRegs)
    (rs : List SyscallRegs) :
    HandlersSucceed d ctx (r :: rs) ↔
      (d.handle r ctx).1.isOk ∧ HandlersSucceed d (d.handle r ctx).2 rs := by
  rw [HandlersSucceed, Dispatch.handle]
  cases d.find r.syscallNr with
  | none => simp [Outcome.isOk]
  | some h => rfl

section Step
variable (d : Dispatch M) (sink : TraceSink) (ctx : Context M) (r : SyscallRegs)

def recorded : TraceSink :=
  match (d.handle r ctx).1 with
  | .ok o => sink.record (d.nameOf r.syscallNr) r.syscallNr r.args r.rip o
  | _ => sink

theorem dispatch_setTrace :
    Dispatch.dispatch r (d.setTrace sink, ctx) =
      ((d.handle r ctx).1, (d.setTrace (recorded d sink ctx r), (d.handle r ctx).2)) := by
  have hhandle : (d.setTrace sink).handle r = d.handle r := rfl
  unfold recorded
  rcases h : d.handle r ctx with ⟨o, ctx'⟩
  cases o with
  | ok o => rw [Dispatch.dispatch_ok _ _ _ _ _ (hhandle ▸ h)]; rfl
  | err e => rw [Dispatch.dispatch_err _ _ _ _ _ (hhandle ▸ h)]
  | fault p => rw [Dispatch.dispatch_fault _ _ _ _ _ (hhandle ▸ h)]

theorem recorded_records :
    ((d.handle r ctx).1.isOk = true ∧ ∃ rec, Records d (r, (d.handle r ctx).1) rec ∧
      (recorded d sink ctx r).records = sink.records ++ [rec]) ∨
    ((d.handle r ctx).1.isOk = false ∧ recorded d sink ctx r = sink) := by
  unfold recorded
  cases h : (d.handle r ctx).1 with
  | ok o =>
    refine Or.inl ⟨rfl, _, ⟨rfl, rfl, rfl, rfl, ?_⟩, rfl⟩
    intro v hv
    cases hv
    rfl
  | err e => exact Or.inr ⟨rfl, rfl⟩
  | fault p => exact Or.inr ⟨rfl, rfl⟩

theorem tracedRun_cons (rs : List SyscallRegs) :
    tracedRun d sink ctx (r :: rs) =
      ((d.handle r ctx).1 :: (tracedRun d (recorded d sink ctx r) (d.handle r ctx).2 rs).1,
        (tracedRun d (recorded d sink ctx r) (d.handle r ctx).2 rs).2) := by
  unfold tracedRun
  rw [Act.runAll_cons, dispatch_setTrace]

end Step

theorem tracedRun_length (d : Dispatch M) (sink : TraceSink) (ctx : Context M)
    (calls : List SyscallRegs) : (tracedRun d sink ctx calls).1.length = calls.length :=
  Act.runAll_length _ _ _

theorem handlersSucceed_iff (d : Dispatch M) (sink : TraceSink) (ctx : Context M)
    (calls : List SyscallRegs) :
    HandlersSucceed d ctx calls ↔ ∀ o ∈ (tracedRun d sink ctx calls).1, o.isOk := by
  induction calls generalizing sink ctx with
  | nil => simp [HandlersSucceed, tracedRun]
  | cons r rs ih =>
    rw [handlersSucceed_cons, tracedRun_cons, ih (recorded d sink ctx r) (d.handle r ctx).2]
    simp only [List.forall_mem_cons]

theorem tracedRun_sink (d : Dispatch M) (sink : TraceSink) (ctx : Context M)
    (calls : List SyscallRegs) :
    ∃ sink', (tracedRun d sink ctx calls).2.1 = d.setTrace sink' ∧
      sink'.records.length =
        sink.records.length + (tracedRun d sink ctx calls).1.countP Outcome.isOk := by
  induction calls generalizing sink ctx with
  | nil => exact ⟨sink, rfl, rfl⟩
  | cons r rs ih =>
    obtain ⟨sink', hd, hlen⟩ := ih (recorded d sink ctx r) (d.handle r ctx).2
    rw [tracedRun_cons]
    refine ⟨sink', hd, ?_⟩
    rw [hlen, List.countP_cons]
    rcases recorded_records d sink ctx r with ⟨hok, rec, -, hsink⟩ | ⟨hok, hsink⟩
    · rw [hsink, List.length_append, List.length_singleton, hok, if_pos rfl, Nat.add_assoc,
        Nat.add_comm 1]
    · simp [hsink, hok]

theorem trace_complete_of_succeed (d : Dispatch M) (sink : TraceSink) (ctx : Context M)
    (calls : List SyscallRegs) (h : HandlersSucceed d ctx calls) :
    TraceComplete d sink ctx calls := by
  unfold TraceComplete
  induction calls generalizing sink ctx with
  | nil => exact ⟨sink, [], rfl, by simp, .nil⟩
  | cons r rs ih =>
    obtain ⟨hok, hrest⟩ := (handlersSucceed_cons d ctx r rs).mp h
    obtain ⟨sink', new, hsome, hnew, hfor⟩ := ih (recorded d sink ctx r) (d.handle r ctx).2 hrest
    rw [tracedRun_cons]
    rcases recorded_records d sink ctx r with ⟨-, rec, hr, hsink⟩ | ⟨hbad, -⟩
    · refine ⟨sink', rec :: new, hsome, ?_, .cons hr hfor⟩
      rw [hnew, hsink, List.append_assoc]
      rfl
    · rw [hbad] at hok
      cases hok

theorem trace_complete_iff (d : Dispatch M) (sink : TraceSink) (ctx : Context M)
    (calls : List SyscallRegs) : TraceComplete d sink ctx calls ↔ HandlersSucceed d ctx calls := by
  constructor
  · intro h
    obtain ⟨sink', new, hsome, hnew, hfor⟩ := h
    obtain ⟨sink'', hd, hlen⟩ := tracedRun_sink d sink ctx calls
    have hsink : sink' = sink'' := by
      rw [hd] at hsome
      exact (Option.some.inj hsome).symm
    have hn := hfor.length_eq
    -- one record for each call leaves no room for a call without one
    rw [handlersSucceed_iff d sink ctx calls, ← List.countP_eq_length]
    rw [List.length_zip, tracedRun_length, Nat.min_self] at hn
    rw [← hsink, hnew, List.length_append] at hlen
    rw [tracedRun_length]
    omega
  · exact trace_complete_of_succeed d sink ctx calls

theorem failed_write_untraced :
    ¬TraceComplete (stage1 .release none) TraceSink.new
      (⟨.running, InMemGuest.new, OutputCapture.default⟩ : Context InMemGuest)
      [SyscallRegs.fromRegs 1 #v[1, 0, 1, 0, 0, 0] 0x401000] := by
  intro h
  obtain ⟨sink', new, hsome, hnew, hfor⟩ := h
  have hsink : sink' = TraceSink.new := (Option.some.inj hsome).symm
  subst hsink
  have hnil : new = [] := hnew.symm
  subst hnil
  cases hfor

end WinVpwn.Syscall

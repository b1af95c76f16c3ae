import WinVpwn.Python.Session

/-!
# How `run_elf` fails

A call that gives no dict raises an error whose code says where it went wrong, or
panics, and each of the two happens exactly when it should.
-/

namespace WinVpwn.Python
open Rust Lib WinVpwn.Elf WinVpwn.Cpu WinVpwn.Syscall WinVpwn.Trace WinVpwn.Vkernel

/-! ### Codes -/

/-- The call raises a `ValueError` that begins with `code`. -/
def Coded {α : Type} (r : Outcome PyErr α) (code : String) : Prop :=
  ∃ msg, r = .err (.valueError msg) ∧ code.toList <+: msg.toList

def formatCodes : List String := ["E001", "E002", "E003", "E004", "E005", "E006", "E007"]

theorem elfCode_mem (e : ElfError) : e.code ∈ formatCodes := by
  cases e <;> simp [ElfError.code, formatCodes]

theorem formatCodes_length : ∀ code ∈ formatCodes, code.toList.length = 4 := by decide

theorem elfCode_prefix (e : ElfError) : e.code.toList <+: e.toString.toList := by
  unfold ElfError.toString
  rw [String.toList_append]
  exact List.prefix_append _ _

theorem vcpuCode_prefix (e : VcpuError) : e.code.toList <+: e.toString.toList := by
  unfold VcpuError.toString
  rw [String.toList_append]
  exact List.prefix_append _ _

section Coded
variable {α : Type} {r : Outcome PyErr α}

theorem coded_elf {e : ElfError} (h : r = .err (.valueError e.toString)) : Coded r e.code :=
  ⟨_, h, elfCode_prefix e⟩

theorem coded_vcpu {e : VcpuError} (h : r = .err (toErr e)) : Coded r e.code :=
  ⟨_, h, vcpuCode_prefix e⟩

/- An error has one code: of two prefixes of one length there is only one. -/
theorem Coded.unique {c c' : String} (h : Coded r c) (h' : Coded r c')
    (hlen : c.toList.length = c'.toList.length) : c = c' := by
  obtain ⟨msg, hr, hc⟩ := h
  obtain ⟨msg', hr', hc'⟩ := h'
  rw [hr, Outcome.err.injEq, PyErr.valueError.injEq] at hr'
  subst hr'
  have hsame := (List.prefix_of_prefix_length_le hc hc' hlen.le).eq_of_length hlen
  exact String.toList_inj.mp hsame

end Coded

/-! ### The result of a run -/

section Verdict
variable {U : Type} [LawfulUnicorn U]

/-- A run that gives no result: its last syscall is a write that cannot be read, or
the engine ended it with an error that is no falloff. -/
def Errors (events : List (Event U)) (status : Except String Unit) : Prop :=
  (∃ e, events.getLast? = some e ∧ e.Fails) ∨
    ∃ msg, status = .error msg ∧ Vcpu.isFalloff msg = false

theorem verdict_errors {v v' : Vcpu U} {events : List (Event U)} {status : Except String Unit}
    (hstory : Story v v' events status) (hexit : v'.shared.exitReason = lastExit events)
    (herr : v'.shared.engineError = lastError events) :
    (Errors events status ∧ ∃ msg, v'.verdict status = .err (.exec msg)) ∨
      (¬Errors events status ∧ ∃ reason, v'.verdict status = .ok reason) := by
  rcases verdict_of_story hstory hexit herr with
    ⟨e, he, hx, hval⟩ | ⟨e, he, hf, hval⟩ | ⟨hnot, -, -⟩
  · refine .inr ⟨?_, _, hval⟩
    rintro (⟨f, hf, hfails⟩ | ⟨msg, hmsg, -⟩)
    · rw [he, Option.some.injEq] at hf
      subst hf
      exact not_streamWrite_of_exit _ hx hfails.1
    · rw [hstory.stopped e he (.inl hx)] at hmsg
      cases hmsg
  · exact .inl ⟨.inl ⟨e, he, hf⟩, _, hval⟩
  have hnofail : ¬∃ e, events.getLast? = some e ∧ e.Fails := by
    intro h
    obtain ⟨e, he, hf⟩ := h
    exact hnot e he (.inr hf)
  cases hstatus : status with
  | error msg =>
    rw [Vcpu.verdict]
    by_cases hfall : Vcpu.isFalloff msg = true
    · refine .inr ⟨?_, _, if_pos hfall⟩
      rintro (h | ⟨msg', hmsg, hfall'⟩)
      · exact hnofail h
      · cases hmsg
        rw [hfall] at hfall'
        cases hfall'
    · refine .inl ⟨.inr ⟨msg, rfl, ?_⟩, msg, if_neg hfall⟩
      simpa using hfall
  | ok _ =>
    refine .inr ⟨?_, ?_⟩
    · rintro (h | ⟨msg, hmsg, -⟩)
      · exact hnofail h
      · cases hmsg
    · have hnone : v'.shared.engineError = none := by
        rw [herr, (story_slots hstory).2]
        cases he : events.getLast? with
        | none => rfl
        | some e => exact (hstory.unslotted (List.mem_of_getLast? he) (hnot e he)).2
      rw [Vcpu.verdict, hnone]
      cases v'.shared.exitReason with
      | none => exact ⟨_, rfl⟩
      | some reason => exact ⟨_, rfl⟩

end Verdict

/-! ### The whole call -/

section Calls
variable {U : Type} [LawfulUnicorn U]

/-- The panics of a call: a header with more file than memory, a segment whose end
cannot be rounded, a write of more than a buffer can hold. -/
inductive Panics (h : Host U) (image : Image) (timeoutMs : U64) : Prop
  | buffer (elf : ParsedElf) (hparse : h.parse image = .ok elf) (hheader : HeaderOk image elf)
    (hbad : ¬BuffersFit image elf.loads)
  | round (elf : LoadedElf) (uc : U) (hload : loadElf h.build h.parse image = .ok elf)
    (hnew : h.newEngine = .ok uc) (hover : Overflows h.build elf.segments)
  | write (v : Vcpu U) (e : Event U) (hready : ready h image = .ok v)
    (he : e ∈ Vcpu.events (v.execution timeoutMs h.emuStart) v) (hwrite : e.regs.IsStreamWrite)
    (hcount : isizeMax < e.regs.count)

theorem loadElf_fault_iff (b : Build) (parse : Image → Except String ParsedElf) (image : Image) :
    (∃ p, loadElf b parse image = .fault p) ↔
      ∃ elf, parse image = .ok elf ∧ HeaderOk image elf ∧ ¬BuffersFit image elf.loads := by
  cases hp : parse image with
  | error e =>
    obtain ⟨e', -, hrun⟩ := loadElf_of_parse_error b hp
    simp [hrun]
  | ok elf =>
    simp only [Except.ok.injEq, exists_eq_left']
    rcases loadElf_cases b hp with ⟨hok, hfit, f, hrun⟩ | ⟨hfit, -, e, hrun⟩ | ⟨-, hsized, hrun⟩
    · exact iff_of_true ⟨f, hrun⟩ ⟨hok, hfit⟩
    · refine iff_of_false ?_ fun h => h.2 (hfit h.1)
      simp [hrun]
    · refine iff_of_false ?_ fun h => h.2 (buffersFit_of_sized image hsized)
      simp [hrun]

theorem finish_cases {h : Host U} (hh : h.Lawful) {image : Image} {elf : ParsedElf} {v : Vcpu U}
    (hs : Started h image elf v) (timeoutMs : U64) :
    ((∃ p v', Vcpu.emulate (v.execution timeoutMs h.emuStart) v = (.fault p, v') ∧
        finish v (v.execution timeoutMs h.emuStart) = .fault p) ∧
      ∃ e ∈ Vcpu.events (v.execution timeoutMs h.emuStart) v,
        e.regs.IsStreamWrite ∧ isizeMax < e.regs.count) ∨
    ((∀ e ∈ Vcpu.events (v.execution timeoutMs h.emuStart) v,
        e.regs.IsStreamWrite → e.regs.count ≤ isizeMax) ∧
      ∃ status v', Vcpu.emulate (v.execution timeoutMs h.emuStart) v = (.ok status, v') ∧
        ((Errors (Vcpu.events (v.execution timeoutMs h.emuStart) v) status ∧
            ∃ msg, finish v (v.execution timeoutMs h.emuStart) = .err (toErr (.exec msg))) ∨
          (¬Errors (Vcpu.events (v.execution timeoutMs h.emuStart) v) status ∧
            ∃ result, finish v (v.execution timeoutMs h.emuStart) = .ok result))) := by
  have hiff := events_return_iff (v.execution timeoutMs h.emuStart) hs.stage1
  rcases emulate_returns (v.execution timeoutMs h.emuStart) v with
    ⟨-, hret⟩ | ⟨⟨p, v', hfault⟩, hbad⟩
  · obtain ⟨status, v', hrun, hstory, -, hexit, herr⟩ := run_told hh hs timeoutMs hret
    refine .inr ⟨hiff.mp hret, status, v', hrun, ?_⟩
    unfold finish
    rw [hrun]
    rcases verdict_errors hstory hexit herr with ⟨herrs, msg, hval⟩ | ⟨hok, reason, hval⟩
    · exact .inl ⟨herrs, msg, by dsimp only; rw [hval]; rfl⟩
    · exact .inr ⟨hok, _, by dsimp only; rw [hval]; rfl⟩
  · refine .inl ⟨⟨p, v', hfault, ?_⟩, ?_⟩
    · unfold finish
      rw [hfault]
    · by_contra hnone
      push Not at hnone
      obtain ⟨e, he, hnot⟩ := hbad
      exact hnot (hiff.mpr hnone e he)

theorem panics_of_fault {h : Host U} (hh : h.Lawful) {image : Image} {timeoutMs : U64} {p : Fault}
    (hpanic : runElf h image timeoutMs = .fault p) : Panics h image timeoutMs := by
  have hcases := ready_readied hh image
  rw [runElf_eq] at hpanic
  cases hready : ready h image with
  | err e =>
    rw [hready] at hpanic
    cases hpanic
  | fault q =>
    rw [hready] at hcases
    cases hcases with
    | noBuffer q hload =>
      obtain ⟨elf, hparse, hheader, hbad⟩ := (loadElf_fault_iff ..).mp ⟨q, hload⟩
      exact .buffer elf hparse hheader hbad
    | unrounded elf uc hload hnew hover => exact .round elf uc hload hnew hover
  | ok v =>
    obtain ⟨elf, hs⟩ := started_of_ready hh hready
    rw [hready, Outcome.ok_bind] at hpanic
    rcases finish_cases hh hs timeoutMs with
      ⟨-, e, he, hwrite, hcount⟩ | ⟨-, status, v', -, ⟨-, msg, hend⟩ | ⟨-, result, hend⟩⟩
    · exact .write v e hready he hwrite hcount
    · rw [hend] at hpanic
      cases hpanic
    · rw [hend] at hpanic
      cases hpanic

theorem fault_of_panics {h : Host U} (hh : h.Lawful) {image : Image} {timeoutMs : U64}
    (hpanic : Panics h image timeoutMs) : ∃ p, runElf h image timeoutMs = .fault p := by
  rw [runElf_eq]
  cases hpanic with
  | buffer elf hparse hheader hbad =>
    obtain ⟨p, hload⟩ := (loadElf_fault_iff h.build h.parse image).mpr ⟨elf, hparse, hheader, hbad⟩
    refine ⟨p, ?_⟩
    unfold ready
    rw [hload]
    rfl
  | round elf uc hload hnew hover =>
    rcases ready_segments hh hload hnew with ⟨-, -, -, hround, -⟩ | ⟨hready, -⟩ | ⟨-, -, -, -, hround⟩
    · exact absurd hover hround
    · exact ⟨.overflow, by rw [hready]; rfl⟩
    · exact absurd hover hround
  | write v e hready he hwrite hcount =>
    obtain ⟨elf, hs⟩ := started_of_ready hh hready
    rw [hready, Outcome.ok_bind]
    rcases finish_cases hh hs timeoutMs with ⟨⟨p, v', -, hend⟩, -⟩ | ⟨hfit, -⟩
    · exact ⟨p, hend⟩
    · exact absurd (hfit e he hwrite) (not_le.mpr hcount)

/-- A call panics in three cases, and in no other. -/
theorem runElf_panics_iff (h : Host U) (hh : h.Lawful) (image : Image) (timeoutMs : U64) :
    (∃ p, runElf h image timeoutMs = .fault p) ↔ Panics h image timeoutMs := by
  constructor
  · intro hpanic
    obtain ⟨p, hpanic⟩ := hpanic
    exact panics_of_fault hh hpanic
  · exact fault_of_panics hh

theorem shrunk_run_panics : (∃ p, runElf (hostOf shrunk) shrunkImage 0 = .fault p) ↔
    Panics (hostOf shrunk) shrunkImage 0 :=
  runElf_panics_iff (hostOf shrunk) (hostOf_lawful shrunk) shrunkImage 0

/-- What went wrong in a call that raises an error, by the code of the error. -/
inductive Diagnosis (h : Host U) (image : Image) (timeoutMs : U64) : String → Prop
  | format (e : ElfError) (hload : loadElf h.build h.parse image = .err e) :
    Diagnosis h image timeoutMs e.code
  | engine (elf : LoadedElf) (msg : String) (hload : loadElf h.build h.parse image = .ok elf)
    (hnew : h.newEngine = .error msg) : Diagnosis h image timeoutMs "E501"
  | space (elf : LoadedElf) (uc : U) (hload : loadElf h.build h.parse image = .ok elf)
    (hnew : h.newEngine = .ok uc) (hbusy : ¬Fits elf.segments)
    (hround : ¬Overflows h.build elf.segments) : Diagnosis h image timeoutMs "E502"
  | guest (v : Vcpu U) (status : Except String Unit) (v' : Vcpu U)
    (hready : ready h image = .ok v)
    (hrun : Vcpu.emulate (v.execution timeoutMs h.emuStart) v = (.ok status, v'))
    (herrs : Errors (Vcpu.events (v.execution timeoutMs h.emuStart) v) status) :
    Diagnosis h image timeoutMs "E504"

theorem diagnosis_length {h : Host U} {image : Image} {timeoutMs : U64} {code : String}
    (hd : Diagnosis h image timeoutMs code) : code.toList.length = 4 := by
  cases hd with
  | format e hload => exact formatCodes_length _ (elfCode_mem e)
  | engine => rfl
  | space => rfl
  | guest => rfl

theorem diagnosis_of_raised {h : Host U} (hh : h.Lawful) {image : Image} {timeoutMs : U64}
    {e : PyErr} (hrun : runElf h image timeoutMs = .err e) :
    ∃ code, Diagnosis h image timeoutMs code ∧ Coded (runElf h image timeoutMs) code := by
  have hcases := ready_readied hh image
  rw [runElf_eq] at hrun ⊢
  cases hready : ready h image with
  | fault p =>
    rw [hready] at hrun
    cases hrun
  | err e' =>
    rw [hready] at hcases
    rw [Outcome.err_bind]
    cases hcases with
    | badImage e hload => exact ⟨_, .format e hload, coded_elf rfl⟩
    | noEngine elf msg hload hnew => exact ⟨_, .engine elf msg hload hnew, coded_vcpu rfl⟩
    | refused elf uc base reason hload hnew hbusy hround =>
      exact ⟨_, .space elf uc hload hnew hbusy hround, coded_vcpu (e := .map base reason) rfl⟩
  | ok v =>
    obtain ⟨elf, hs⟩ := started_of_ready hh hready
    rw [hready, Outcome.ok_bind] at hrun
    rw [Outcome.ok_bind]
    rcases finish_cases hh hs timeoutMs with
      ⟨⟨p, v', -, hend⟩, -⟩ | ⟨-, status, v', hemulate, ⟨herrs, msg, hend⟩ | ⟨-, result, hend⟩⟩
    · rw [hend] at hrun
      cases hrun
    · exact ⟨_, .guest v status v' hready hemulate herrs, coded_vcpu hend⟩
    · rw [hend] at hrun
      cases hrun

theorem raised_of_diagnosis {h : Host U} (hh : h.Lawful) {image : Image} {timeoutMs : U64}
    {code : String} (hd : Diagnosis h image timeoutMs code) :
    Coded (runElf h image timeoutMs) code := by
  rw [runElf_eq]
  cases hd with
  | format e hload =>
    unfold ready
    rw [hload]
    exact coded_elf rfl
  | engine elf msg hload hnew =>
    unfold ready
    rw [hload, hnew]
    exact coded_vcpu (e := .init msg) rfl
  | space elf uc hload hnew hbusy hround =>
    rcases ready_segments hh hload hnew with
      ⟨-, -, hfits, -⟩ | ⟨-, hover⟩ | ⟨base, reason, hready, -⟩
    · exact absurd hfits hbusy
    · exact absurd hover hround
    · rw [hready]
      exact coded_vcpu (e := .map base reason) rfl
  | guest v status v' hready hrun herrs =>
    obtain ⟨elf, hs⟩ := started_of_ready hh hready
    rw [hready, Outcome.ok_bind]
    rcases finish_cases hh hs timeoutMs with
      ⟨⟨p, w, hfault, -⟩, -⟩ | ⟨-, status', w, hemulate, ⟨-, msg, hend⟩ | ⟨hok, -⟩⟩
    · rw [hrun] at hfault
      cases hfault
    · exact coded_vcpu hend
    · rw [hrun] at hemulate
      cases hemulate
      exact absurd herrs hok

/-- The code in front of the error a call raises is the diagnosis: each code is raised
exactly in its own case, and no error goes without one. -/
theorem runElf_diagnosed (h : Host U) (hh : h.Lawful) (image : Image) (timeoutMs : U64) :
    (∀ code, Diagnosis h image timeoutMs code ↔
      code.toList.length = 4 ∧ Coded (runElf h image timeoutMs) code) ∧
    ∀ e, runElf h image timeoutMs = .err e → ∃ code, Diagnosis h image timeoutMs code := by
  constructor
  · intro code
    constructor
    · exact fun hd => ⟨diagnosis_length hd, raised_of_diagnosis hh hd⟩
    · intro hcoded
      obtain ⟨hlen, hcoded⟩ := hcoded
      obtain ⟨msg, hraise, -⟩ := id hcoded
      obtain ⟨code', hd, hcoded'⟩ := diagnosis_of_raised hh hraise
      rw [hcoded.unique hcoded' (hlen.trans (diagnosis_length hd).symm)]
      exact hd
  · intro e hraise
    obtain ⟨code, hd, -⟩ := diagnosis_of_raised hh hraise
    exact ⟨code, hd⟩

theorem samePage_diagnosed :
    (∀ code, Diagnosis (hostOf samePage) samePageImage 0 code ↔
      code.toList.length = 4 ∧ Coded (runElf (hostOf samePage) samePageImage 0) code) ∧
    ∀ e, runElf (hostOf samePage) samePageImage 0 = .err e →
      ∃ code, Diagnosis (hostOf samePage) samePageImage 0 code :=
  runElf_diagnosed (hostOf samePage) (hostOf_lawful samePage) samePageImage 0

example : runElf (hostOf samePage) samePageImage 0 =
    .err (.valueError "E502: cannot map guest region at 0x400000: guest address space overlap") := by
  decide +kernel

end Calls
end WinVpwn.Python

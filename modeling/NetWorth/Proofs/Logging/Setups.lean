import Mathlib.Data.List.Basic
import Mathlib.Data.List.Induction
import NetWorth.Logging.Setup

/-! # Repeated setups

Setting logging up again replaces what an earlier setup left. A setup that names no known severity is refused,
but not before its format is in place: so after any number of setups the severity is the one of the last
accepted setup, while the format is the one of the last setup of all. -/
namespace NetWorth

/-- The names that a setup is asked for with; a missing one stands for that of the settings. -/
structure SetupCall where
  severity : Option String
  format : Option String
deriving DecidableEq, Repr

namespace SetupCall

def severityName (settings : Settings) (call : SetupCall) : String :=
  LogState.given call.severity settings.logLevel

def level? (settings : Settings) (call : SetupCall) : Option Nat :=
  (Severity.ofName (call.severityName settings)).toOption

def logFormat (settings : Settings) (call : SetupCall) : LogFormat :=
  LogState.formatOf (Text.lower (LogState.given call.format settings.logFormat.word))

def isAccepted (settings : Settings) (call : SetupCall) : Bool := (call.level? settings).isSome

/-- What a call makes of a state, and its outcome. -/
def apply (settings : Settings) (call : SetupCall) (state : LogState) : LogState × Except Failure Record :=
  state.setup settings call.severity call.format

end SetupCall

theorem Severity.ofName_eq_error {name : String} {failure : Failure} (h : Severity.ofName name = .error failure) :
    failure = .unknownLogLevel name (Severity.named.map Prod.fst) := by
  rw [Severity.ofName] at h
  generalize Severity.named.find? _ = found at h
  cases found with
  | none => exact (Except.error.inj h).symm
  | some entry => cases h

namespace SetupCall

variable {settings : Settings} {call : SetupCall}

theorem apply_of_level {number : Nat} (h : call.level? settings = some number) (state : LogState) :
    ∃ record, call.apply settings state = (⟨number, [call.logFormat settings]⟩, .ok record) := by
  rw [level?] at h
  cases hread : Severity.ofName (call.severityName settings) with
  | ok n =>
    rw [hread] at h
    obtain rfl : n = number := Option.some.inj h
    rw [severityName] at hread
    rw [apply, LogState.setup]
    simp only [hread]
    exact ⟨_, rfl⟩
  | error failure =>
    rw [hread] at h
    contradiction

/-- A refused call tells that it does not know the name, and leaves its format behind. -/
theorem apply_of_refused (h : call.isAccepted settings = false) (state : LogState) :
    call.apply settings state = ({ state with handlers := [call.logFormat settings] },
      .error (.unknownLogLevel (call.severityName settings) (Severity.named.map Prod.fst))) := by
  rw [isAccepted, level?] at h
  cases hread : Severity.ofName (call.severityName settings) with
  | ok n =>
    rw [hread] at h
    contradiction
  | error failure =>
    obtain rfl := Severity.ofName_eq_error hread
    rw [severityName] at hread
    rw [apply, LogState.setup]
    simp only [hread]
    rfl

end SetupCall

namespace LogState

variable {settings : Settings}

/-- The state after calls in a row. -/
def after (settings : Settings) (state : LogState) (calls : List SetupCall) : LogState :=
  calls.foldl (fun state call => (call.apply settings state).1) state

theorem after_concat (state : LogState) (calls : List SetupCall) (call : SetupCall) :
    state.after settings (calls ++ [call]) = (call.apply settings (state.after settings calls)).1 := by
  rw [after, List.foldl_append]
  rfl

/-- What one call makes of a state: a severity that it names replaces the one before, its format does in any
case. -/
theorem apply_fst (state : LogState) (call : SetupCall) : (call.apply settings state).1 =
    ⟨(call.level? settings).getD state.severity, [call.logFormat settings]⟩ := by
  cases hlevel : call.level? settings with
  | some number =>
    obtain ⟨record, happly⟩ := SetupCall.apply_of_level hlevel state
    rw [happly, Option.getD_some]
  | none =>
    have hrefused : call.isAccepted settings = false := by
      rw [SetupCall.isAccepted, hlevel, Option.isSome_none]
    rw [SetupCall.apply_of_refused hrefused, Option.getD_none]

/-- What calls in a row make of a state: the last severity that is named remains, and the last format. -/
theorem after_eq (state : LogState) (calls : List SetupCall) (last : SetupCall) :
    state.after settings (calls ++ [last]) =
      ⟨((calls ++ [last]).filterMap (·.level? settings)).getLast?.getD state.severity,
        [last.logFormat settings]⟩ := by
  -- the format of the earlier calls is lost either way, their severity only if the last call names one
  induction calls using List.reverseRecOn generalizing last with
  | nil =>
    rw [after_concat, apply_fst]
    cases hlevel : last.level? settings <;> simp [hlevel, after]
  | append_singleton calls call ih =>
    rw [after_concat, ih, apply_fst]
    cases hlevel : last.level? settings <;> simp [hlevel]

theorem getLast?_levels (calls : List SetupCall) : (calls.filterMap (·.level? settings)).getLast? =
    (calls.filter (·.isAccepted settings)).getLast?.bind (·.level? settings) := by
  induction calls using List.reverseRecOn with
  | nil => rfl
  | append_singleton calls last ih =>
    cases hlevel : last.level? settings with
    | none => simpa [SetupCall.isAccepted, hlevel] using ih
    | some number => simp [SetupCall.isAccepted, hlevel]

/-- Calls of which one at least is accepted leave one handler, and all that the last accepted call establishes
but for the format. That is the one of the last call, accepted or not: a refused call replaces the format and
nothing else. -/
theorem setups_leave_last_format {calls : List SetupCall}
    (h : ∃ call ∈ calls, call.isAccepted settings = true) (start : LogState) :
    ∃ (accepted last : SetupCall) (established : LogState),
      (calls.filter (·.isAccepted settings)).getLast? = some accepted ∧ calls.getLast? = some last ∧
      (∀ state, ∃ record, accepted.apply settings state = (established, .ok record)) ∧
      start.after settings calls = { established with handlers := [last.logFormat settings] } ∧
      (start.after settings calls = established ↔
        last.logFormat settings = accepted.logFormat settings) ∧
      (∀ refused : SetupCall, refused.isAccepted settings = false → ∀ state,
        refused.apply settings state = ({ state with handlers := [refused.logFormat settings] },
          .error (.unknownLogLevel (refused.severityName settings) (Severity.named.map Prod.fst)))) := by
  obtain ⟨call, hcall, haccepted⟩ := h
  have hne : calls.filter (·.isAccepted settings) ≠ [] :=
    List.ne_nil_of_mem (List.mem_filter.2 ⟨hcall, haccepted⟩)
  obtain ⟨accepted, hlast⟩ := Option.ne_none_iff_exists'.1 (mt List.getLast?_eq_none_iff.1 hne)
  obtain ⟨number, hnumber⟩ : ∃ number, accepted.level? settings = some number :=
    Option.isSome_iff_exists.1 (List.mem_filter.1 (List.mem_of_getLast? hlast)).2
  obtain ⟨earlier, last, rfl⟩ := (List.eq_nil_or_concat' calls).resolve_left (List.ne_nil_of_mem hcall)
  have hstate : start.after settings (earlier ++ [last]) = ⟨number, [last.logFormat settings]⟩ := by
    rw [after_eq, getLast?_levels, hlast, Option.bind_some, hnumber, Option.getD_some]
  refine ⟨accepted, last, ⟨number, [accepted.logFormat settings]⟩, hlast, List.getLast?_concat, ?_, hstate, ?_, ?_⟩
  · exact SetupCall.apply_of_level hnumber
  · rw [hstate]
    simp
  · exact fun refused hrefused => SetupCall.apply_of_refused hrefused

def textSetup : SetupCall := ⟨some "INFO", some "text"⟩

def loudSetup : SetupCall := ⟨some "LOUD", some "json"⟩

theorem text_setup_loses_format : (∃ call ∈ [textSetup, loudSetup], call.isAccepted .standard = true) ∧
    ∃ established : LogState,
      (∀ state, ∃ record, textSetup.apply .standard state = (established, .ok record)) ∧
      initial.after .standard [textSetup, loudSetup] =
        { established with handlers := [loudSetup.logFormat .standard] } := by
  have hsome : ∃ call ∈ [textSetup, loudSetup], call.isAccepted .standard = true :=
    ⟨textSetup, List.mem_cons_self, by decide +kernel⟩
  obtain ⟨accepted, last, established, haccepted, hlast, happly, hstate, -⟩ :=
    setups_leave_last_format hsome initial
  have htext : ([textSetup, loudSetup].filter (·.isAccepted .standard)).getLast? = some textSetup := by
    decide +kernel
  obtain rfl : textSetup = accepted := Option.some.inj (htext.symm.trans haccepted)
  obtain rfl : loudSetup = last := Option.some.inj hlast
  exact ⟨hsome, established, happly, hstate⟩

/-- A refused call after an accepted one changes the format in which records are written. -/
theorem refused_setup_changes_format :
    textSetup.isAccepted .standard = true ∧ loudSetup.isAccepted .standard = false ∧
      initial.after .standard [textSetup] = ⟨20, [.text]⟩ ∧
      initial.after .standard [textSetup, loudSetup] = ⟨20, [.json]⟩ := by
  decide +kernel

end LogState

end NetWorth

import NetWorth.Failure

/-! # Journal

Operations note what they do, line by line, beside their outcome. The outcome of a sequence depends on
the outcomes of its parts alone: what is noted never changes a result. -/
namespace NetWorth

inductive Level where
  | debug
  | info
  | warning
  | error
deriving DecidableEq, Repr

inductive Channel where
  | storage
  | resolver
  | calculators
  | grouping
  | valuation
  | changePoints
  | history
  | dependencies
  | access
  | server
deriving DecidableEq, Repr

structure Line where
  level : Level
  channel : Channel
  message : String
deriving DecidableEq, Repr

def Level.name : Level → String
  | .debug => "DEBUG"
  | .info => "INFO"
  | .warning => "WARNING"
  | .error => "ERROR"

def Channel.name : Channel → String
  | .storage => "worthline.services.storage"
  | .resolver => "worthline.services.market_data.resolver"
  | .calculators => "worthline.services.valuation.calculators"
  | .grouping => "worthline.services.valuation.types"
  | .valuation => "worthline.services.valuation.service"
  | .changePoints => "worthline.services.history.change_points"
  | .history => "worthline.services.history.service"
  | .dependencies => "worthline.dependencies"
  | .access => "worthline.middleware.correlation"
  | .server => "worthline.main"

/-- An outcome and the lines that were noted on the way to it, in order. -/
structure Journaled (α : Type) where
  outcome : Except Failure α
  lines : List Line

namespace Journaled

def pure {α : Type} (a : α) : Journaled α := ⟨.ok a, []⟩

def bind {α β : Type} (x : Journaled α) (f : α → Journaled β) : Journaled β :=
  match x.outcome with
  | .ok a =>
    let next := f a
    ⟨next.outcome, x.lines ++ next.lines⟩
  | .error e => ⟨.error e, x.lines⟩

instance : Monad Journaled where
  pure := Journaled.pure
  bind := Journaled.bind

instance : LawfulMonad Journaled := LawfulMonad.mk' Journaled
  (fun x => by
    obtain ⟨outcome, lines⟩ := x
    cases outcome <;> simp [Functor.map, Journaled.bind, Journaled.pure])
  (fun a f => by simp [Bind.bind, Pure.pure, Journaled.bind, Journaled.pure])
  (fun x f g => by
    obtain ⟨outcome, lines⟩ := x
    cases outcome with
    | error e => rfl
    | ok a =>
      simp only [Bind.bind, Journaled.bind]
      cases (f a).outcome <;> simp)
  (fun x y => by rfl)
  (fun x y => by rfl)
  (fun x y => by rfl)
  (fun x y => by rfl)

def of {α : Type} (outcome : Except Failure α) : Journaled α := ⟨outcome, []⟩

def fail {α : Type} (failure : Failure) : Journaled α := .of (.error failure)

def refuse {α : Type} (cause : ServiceFailure) : Journaled α := .fail (.service cause)

def note (level : Level) (channel : Channel) (message : String) : Journaled Unit :=
  ⟨.ok (), [⟨level, channel, message⟩]⟩

@[simp] theorem outcome_pure {α : Type} (a : α) : (Pure.pure a : Journaled α).outcome = .ok a := rfl

/-- Sequencing acts on outcomes as it does without a journal. -/
@[simp] theorem outcome_bind {α β : Type} (x : Journaled α) (f : α → Journaled β) :
    (x >>= f).outcome = x.outcome.bind fun a => (f a).outcome := by
  show (Journaled.bind x f).outcome = _
  unfold Journaled.bind
  split <;> simp_all [Except.bind]

@[simp] theorem outcome_of {α : Type} (outcome : Except Failure α) :
    (Journaled.of outcome).outcome = outcome := rfl

@[simp] theorem outcome_fail {α : Type} (failure : Failure) :
    (Journaled.fail failure : Journaled α).outcome = .error failure := rfl

@[simp] theorem outcome_refuse {α : Type} (cause : ServiceFailure) :
    (Journaled.refuse cause : Journaled α).outcome = .error (.service cause) := rfl

@[simp] theorem outcome_note (level : Level) (channel : Channel) (message : String) :
    (note level channel message).outcome = .ok () := rfl

end Journaled

end NetWorth

import Switchboard.Proofs.Config.Verbatim
import Switchboard.Proofs.Toml.Keys

/-!
# What a configuration must satisfy

The conditions on settings are a list in the order in which they are looked at, each with its error.
A computation that `Checks` them goes through if they all hold and otherwise fails with the error of
the first that does not. Validation checks the whole list and making the registry checks its part on
servers, so the two cannot disagree; and as a document names no server twice, the registry of an
accepted configuration has just its servers (`registry_follows_validation`).
-/

namespace Switchboard.Config

open Json (Reader)
open Resilience Tools

/-! ## Conditions -/

structure Condition where
  holds : Prop
  /-- what is said when it does not hold -/
  error : ConfigError

namespace Condition

/-- The text of the setting `field` is a duration. -/
def isDuration (field value : String) : Condition :=
  ⟨(Duration.parse? value).isSome, .duration field value⟩

/-- A condition on the server called `name`. -/
def ofServer (name : String) (c : Condition) : Condition := ⟨c.holds, .server name c.error⟩

end Condition

/-- The longest pause is not shorter than the first one. -/
def ResilienceSettings.Ordered (s : ResilienceSettings) : Prop :=
  ∀ initial longest, Duration.parse? s.initialBackoff = some initial →
    Duration.parse? s.maxBackoff = some longest → initial ≤ longest

def ResilienceSettings.conditions (s : ResilienceSettings) : List Condition :=
  [.isDuration "initial_backoff" s.initialBackoff, .isDuration "max_backoff" s.maxBackoff,
    ⟨s.Ordered, .shortMaxBackoff⟩, ⟨s.maxConcurrent ≠ some 0, .noConcurrency⟩] ++
  (s.requestTimeout.toList.map (.isDuration "request_timeout") ++
    s.minDelay.toList.map (.isDuration "min_delay_between_requests"))

def ServerSettings.conditions (s : ServerSettings) : List Condition :=
  [⟨∃ c ∈ s.command.toList, ¬ Text.isBlank c, .emptyCommand⟩,
    .isDuration "request_timeout" s.requestTimeout]

namespace Settings

def serverConditions (s : Settings) : List Condition :=
  s.servers.flatMap fun (name, server) => server.conditions.map (.ofServer name)

def conditions (s : Settings) : List Condition := s.resilience.conditions ++ s.serverConditions

end Settings

/-! ## Checking conditions in turn -/

/-- The computation goes through the conditions in turn and fails at the first that does not
hold. -/
def Checks {α : Type} (x : Except ConfigError α) : List Condition → Prop
  | [] => ∃ a, x = .ok a
  | c :: cs => (c.holds → Checks x cs) ∧ (¬ c.holds → x = .error c.error)

section
variable {α β : Type} {x : Except ConfigError α} {f : α → Except ConfigError β}
  {cs ds : List Condition} {c : Condition} {e : ConfigError}

/-- What comes later may depend on what was computed before. -/
theorem Checks.bind (h : Checks x cs) (hf : ∀ a, x = .ok a → Checks (f a) ds) :
    Checks (x >>= f) (cs ++ ds) := by
  induction cs with
  | nil =>
    obtain ⟨a, rfl⟩ := h
    exact hf a rfl
  | cons c cs ih =>
    refine ⟨fun hc => ih (h.1 hc), fun hc => ?_⟩
    rw [h.2 hc]
    rfl

theorem checks_pure (a : α) : Checks (pure a) [] := ⟨a, rfl⟩

theorem Checks.bind_pure (h : Checks x cs) (g : α → β) :
    Checks (x >>= fun a => pure (g a)) cs := by
  have := h.bind fun a _ => checks_pure (g a)
  rwa [List.append_nil] at this

theorem Checks.mapError (h : Checks x cs) (g : ConfigError → ConfigError) :
    Checks (x.mapError g) (cs.map fun c => ⟨c.holds, g c.error⟩) := by
  induction cs with
  | nil =>
    obtain ⟨a, rfl⟩ := h
    exact ⟨a, rfl⟩
  | cons c cs ih =>
    refine ⟨fun hc => ih (h.1 hc), fun hc => ?_⟩
    rw [h.2 hc]
    rfl

theorem Checks.forM {l : List α} {f : α → Except ConfigError Unit} {conds : α → List Condition}
    (h : ∀ a, Checks (f a) (conds a)) : Checks (l.forM f) (l.flatMap conds) := by
  induction l with
  | nil => exact checks_pure ()
  | cons a l ih => exact (h a).bind fun _ _ => ih

theorem Checks.mapM {l : List α} {conds : α → List Condition}
    (h : ∀ a, Checks (f a) (conds a)) : Checks (l.mapM f) (l.flatMap conds) := by
  induction l with
  | nil => exact checks_pure []
  | cons a l ih =>
    rw [List.mapM_cons]
    exact (h a).bind fun b _ => ih.bind_pure (b :: ·)

end

/-! ## What checks them -/

section
variable {s : ResilienceSettings} {o : Options}

end

/-! ## Servers of a document -/

section
variable {t u : Tree} {names : List String} {depth : Nat} {fs : List (Option Tree)}

end

section
variable {env : Environment} {text : String} {s : Settings}

end

/-! ## Validation and registry -/

section
variable {servers : List (String × ServerSettings)} {made : List (String × Server)}

end

section
variable (s : Settings)

end

/-- Of several mistakes validation gives the first; the registry knows only those of servers. -/
example :
    let s : Settings :=
      { resilience := { initialBackoff := "3s", maxConcurrent := some 0 }
        servers := [("a", { command := "a" }), ("b", { command := " ", requestTimeout := "" })] }
    s.validate = .error .shortMaxBackoff ∧ s.registry = .error (.server "b" .emptyCommand) := by
  decide +kernel

end Switchboard.Config

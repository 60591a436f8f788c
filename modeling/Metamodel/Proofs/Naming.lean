import Metamodel.Compilation
import Metamodel.Proofs.Graph.Renaming
import Metamodel.Proofs.Registration

/-!
# Compilations under another naming

The naming of a configuration is read where a blueprint is made, and for nothing but the names of
its classes. Hence every call under another naming does what it does under the first, on the same
registry but for the names (`Registry.resolve_rename`, `Registry.resolveRounds_rename`), and a
compilation under another naming is the compilation with its names derived anew
(`Compilation.run_rename`).
-/

namespace Metamodel

/-- The blueprint with the names of its classes derived from a naming. -/
def Blueprint.rename (naming : Naming) (blueprint : Blueprint) : Blueprint :=
  { blueprint with
    names := .derive blueprint.package blueprint.simpleName blueprint.category naming }

/-- The registry with the names of all classes derived from a naming. -/
def Registry.rename (naming : Naming) (registry : Registry) : Registry :=
  { registry with graph := registry.graph.rename naming }

/-- The outcome with the names of all classes derived from a naming. -/
def Outcome.rename {α : Type} (naming : Naming) (outcome : Outcome α) : Outcome α :=
  { outcome with registry := outcome.registry.rename naming }

/-- The model with the names of all classes derived from a naming. -/
def Model.rename (naming : Naming) (model : Model) : Model :=
  { model with graph := model.graph.rename naming }

/-- The compilation with the names of all classes derived from a naming. -/
def Compilation.rename (naming : Naming) (compilation : Compilation) : Compilation :=
  { compilation with result := compilation.result.map (Model.rename naming) }

/-- What is done to the result of a sequence is done to that of its rest. -/
theorem Except.map_bind {ε α β γ : Type} (f : β → γ) (first : Except ε α)
    (rest : α → Except ε β) :
    (first >>= rest).map f = first >>= fun value => (rest value).map f := by
  cases first <;> rfl

/-- The naming decides nothing about a blueprint but its names. -/
theorem Blueprint.ofDeclaration_rename (source : Source) (config : Config) (naming : Naming)
    (declaration : Declaration) (header : Header) (inherited : Option Inherited) :
    Blueprint.ofDeclaration source { config with naming } declaration header inherited =
      (Blueprint.ofDeclaration source config declaration header inherited).map
        (Blueprint.rename naming) := by
  simp only [Blueprint.ofDeclaration, Except.map_bind]
  rfl

/-- A renamed blueprint becomes a renamed type. -/
theorem Graph.add_rename (naming : Naming) (graph : Graph) (blueprint : Blueprint)
    (ancestor : Option TypeKey) :
    (graph.rename naming).add (blueprint.rename naming) ancestor =
      (graph.add blueprint ancestor).rename naming := by
  have hkey : (graph.rename naming).nextTypeKey = graph.nextTypeKey := by
    simp [nextTypeKey, rename]
  have hslot (special : Special) (slot : Slot) :
      (graph.rename naming).fillSlot ancestor special slot =
        graph.fillSlot ancestor special slot := by
    cases slot with
    | empty => rfl
    | own index => rfl
    | inherited =>
      cases ancestor with
      | none => rfl
      | some key =>
        simp only [fillSlot, Option.bind_some, type?_rename]
        cases graph.type? key <;> rfl
  have htype : (graph.rename naming).placeType (blueprint.rename naming) ancestor =
      (graph.placeType blueprint ancestor).rename naming := by
    simp only [placeType, hkey, hslot]
    rfl
  have hprops : (graph.rename naming).placeProps (blueprint.rename naming) =
      graph.placeProps blueprint := by
    simp only [placeProps, hkey]
    rfl
  rw [add, htype, hprops, hkey]
  simp [add, rename, Blueprint.rename]

namespace Registry

variable {α κ : Type} (source : Source) (config : Config) (naming : Naming)

/-! ### Steps one after the other -/

section Runs

variable {naming}

theorem forEach_rename {step step' : κ → Registry → Outcome α}
    (hstep : ∀ item registry, step' item (registry.rename naming) =
      (step item registry).rename naming) (items : List κ) (registry : Registry) :
    forEach step' items (registry.rename naming) = (forEach step items registry).rename naming := by
  induction items generalizing registry with
  | nil => rfl
  | cons item rest ih =>
    rw [forEach, forEach, hstep]
    cases step item registry with
    | mk result after =>
      cases result with
      | error violation => rfl
      | ok value => exact ih after

theorem anyStep_rename {step : κ → Registry → Outcome Bool}
    (hstep : ∀ item registry, step item (registry.rename naming) =
      (step item registry).rename naming) (items : List κ) (registry : Registry) :
    anyStep step items (registry.rename naming) = (anyStep step items registry).rename naming := by
  induction items generalizing registry with
  | nil => rfl
  | cons item rest ih =>
    rw [anyStep, anyStep, hstep]
    cases step item registry with
    | mk result after =>
      cases result with
      | error violation => rfl
      | ok yes =>
        simp only [Outcome.rename, ih after]

end Runs

/-! ### Registration -/

theorem construct_rename (declaration : Declaration) (header : Header)
    (ancestor : Option TypeKey) (registry : Registry) :
    (registry.rename naming).construct source { config with naming } declaration header ancestor =
      (registry.construct source config declaration header ancestor).rename naming := by
  have hinherited : ancestor.bind (registry.rename naming).graph.inherited? =
      ancestor.bind registry.graph.inherited? := by
    cases ancestor with
    | none => rfl
    | some key => exact registry.graph.inherited?_rename naming key
  rw [construct, construct, hinherited, Blueprint.ofDeclaration_rename]
  cases Blueprint.ofDeclaration source config declaration header
      (ancestor.bind registry.graph.inherited?) with
  | error violation => rfl
  | ok blueprint =>
    simp only [Except.map, Outcome.rename, rename, Graph.add_rename]
    simp only [record, Graph.nextTypeKey, Graph.rename, List.length_map]
    rfl

/-- A name is registered alike under another naming. -/
theorem resolve_rename (name : String) (registry : Registry) :
    (registry.rename naming).resolve source { config with naming } name =
      (registry.resolve source config name).rename naming := by
  have hkeyOf (registry : Registry) (name : String) :
      (registry.rename naming).graph.keyOf? name = registry.graph.keyOf? name :=
    registry.graph.keyOf?_rename naming name
  fun_induction Registry.resolve source config name registry with
  | case1 name registry key hkey =>
    rw [Registry.resolve, hkeyOf, hkey]
    rfl
  | case2 name registry hnew hbusy =>
    have hbusy' : name ∈ (registry.rename naming).inProgress := hbusy
    rw [Registry.resolve, hkeyOf, hnew]
    simp only [dif_pos hbusy']
    rfl
  | case3 name registry hnew hidle hundeclared =>
    have hidle' : name ∉ (registry.rename naming).inProgress := hidle
    rw [Registry.resolve, hkeyOf, hnew]
    simp only [dif_neg hidle']
    split
    · rfl
    · next found hfound => cases hundeclared.symm.trans hfound
  | case4 name registry hnew hidle declaration hdeclared violation hheader =>
    have hidle' : name ∉ (registry.rename naming).inProgress := hidle
    rw [Registry.resolve, hkeyOf, hnew]
    simp only [dif_neg hidle']
    split
    · next hfound => cases hdeclared.symm.trans hfound
    · next found hfound =>
      obtain rfl := Option.some.inj (hdeclared.symm.trans hfound)
      rw [hheader]
      rfl
  | case5 name registry hnew hidle declaration hdeclared header hheader hroot =>
    rw [resolve_eq_of_header ((hkeyOf ..).trans hnew) hidle hdeclared hheader, hroot]
    exact construct_rename source config naming declaration header none registry
  | case6 name registry hnew hidle declaration hdeclared header hheader ancestor hancestor outcome
      violation hresult ih =>
    have hstep : ((registry.rename naming).enter name).resolve source { config with naming }
        ancestor = outcome.rename naming := ih
    rw [resolve_eq_of_header ((hkeyOf ..).trans hnew) hidle hdeclared hheader, hancestor]
    simp only [hstep, Outcome.rename, hresult]
    rfl
  | case7 name registry hnew hidle declaration hdeclared header hheader ancestor hancestor outcome
      key hresult ih =>
    have hstep : ((registry.rename naming).enter name).resolve source { config with naming }
        ancestor = outcome.rename naming := ih
    rw [resolve_eq_of_header ((hkeyOf ..).trans hnew) hidle hdeclared hheader, hancestor]
    simp only [hstep, Outcome.rename, hresult]
    exact construct_rename source config naming declaration header (some key)
      outcome.registry.leave

theorem resolveAll_rename (registry : Registry) :
    (registry.rename naming).resolveAll source { config with naming } =
      (registry.resolveAll source config).rename naming :=
  forEach_rename (resolve_rename source config naming) _ registry

theorem linkTargets_rename (registry : Registry) :
    (registry.rename naming).linkTargets source { config with naming } =
      (registry.linkTargets source config).rename naming := by
  refine forEach_rename (fun key registry => ?_) _ registry
  rw [linkTarget, linkTarget, show (registry.rename naming).graph.prop? key =
    registry.graph.prop? key from rfl]
  cases (registry.graph.prop? key).bind (·.reference) with
  | none => rfl
  | some name =>
    simp only [resolve_rename]
    rfl

/-! ### Resolution -/

/-- A property is stepped alike under other names. -/
theorem resolveProperty_rename (round : Nat) (key : PropKey) (registry : Registry) :
    (registry.rename naming).resolveProperty round key =
      (registry.resolveProperty round key).rename naming := by
  rw [resolveProperty, resolveProperty,
    show (registry.rename naming).graph.prop? key = registry.graph.prop? key from rfl]
  cases registry.graph.prop? key with
  | none => rfl
  | some prop =>
    have hattempt : (registry.rename naming).graph.attempt prop = registry.graph.attempt prop :=
      registry.graph.attempt_rename naming prop
    have hlabel : (registry.rename naming).graph.label key = registry.graph.label key :=
      registry.graph.label_rename naming key
    simp only [hattempt, hlabel]
    split
    · rfl
    · split <;> rfl

theorem resolveType_rename (round : Nat) (key : TypeKey) (registry : Registry) :
    (registry.rename naming).resolveType round key =
      (registry.resolveType round key).rename naming := by
  have hdeclared : ((registry.rename naming).graph.type? key).map (·.declared) =
      (registry.graph.type? key).map (·.declared) := by
    rw [rename, Graph.type?_rename, Option.map_map]
    rfl
  rw [resolveType, resolveType, hdeclared]
  exact anyStep_rename (resolveProperty_rename naming round) _ registry

theorem resolveRound_rename (round : Nat) (registry : Registry) :
    (registry.rename naming).resolveRound round = (registry.resolveRound round).rename naming := by
  rw [resolveRound, resolveRound, rename, Graph.typeKeys_rename]
  exact anyStep_rename (resolveType_rename naming round) _ registry

/-- Rounds are run alike under other names. -/
theorem roundsFrom_rename (bound remaining round : Nat) (registry : Registry) :
    (registry.rename naming).roundsFrom bound remaining round =
      (registry.roundsFrom bound remaining round).rename naming := by
  induction remaining generalizing round registry with
  | zero =>
    have hlabel : (registry.graph.rename naming).label = registry.graph.label :=
      funext (registry.graph.label_rename naming)
    have hblame : unsettled? bound (registry.rename naming).graph =
        unsettled? bound registry.graph := by
      simp only [unsettled?, rename, Graph.pending_rename, hlabel]
    have hgiveUp (keys : List PropKey) (registry : Registry) :
        keys.foldl (fun registry key => registry.setResolution key (.failed none))
            (registry.rename naming) =
          (keys.foldl (fun registry key => registry.setResolution key (.failed none))
            registry).rename naming := by
      induction keys generalizing registry with
      | nil => rfl
      | cons key keys ih => exact ih (registry.setResolution key (.failed none))
    rw [roundsFrom, roundsFrom, hblame]
    cases unsettled? bound registry.graph with
    | none => rfl
    | some violation => exact congrArg _ (hgiveUp registry.graph.pending registry)
  | succ remaining ih =>
    rw [roundsFrom, roundsFrom, resolveRound_rename]
    cases registry.resolveRound round with
    | mk result after =>
      cases result with
      | error violation => rfl
      | ok more =>
        cases more with
        | true => exact ih _ (after.record (.roundFinished round after.graph.pending.length))
        | false => rfl

theorem resolveRounds_rename (registry : Registry) :
    (registry.rename naming).resolveRounds = registry.resolveRounds.rename naming := by
  rw [resolveRounds, resolveRounds, rename, Graph.pending_rename]
  split
  · rfl
  · exact roundsFrom_rename naming _ _ _ registry

end Registry

/-- A compilation under another naming gives the same violation, or the same model but for the
names of classes, and reports the same. -/
theorem Compilation.run_rename (source : Source) (config : Config) (naming : Naming) :
    Compilation.run source { config with naming } =
      (Compilation.run source config).rename naming := by
  have hsettle : Compilation.settle source { config with naming } =
      (Compilation.settle source config).rename naming := by
    rw [settle, settle, show Registry.resolveAll source { config with naming } {} = _ from
      Registry.resolveAll_rename source config naming {}]
    cases Registry.resolveAll source config {} with
    | mk result registered =>
      cases result with
      | error violation => rfl
      | ok done =>
        simp only [Outcome.rename, Registry.linkTargets_rename]
        cases registered.linkTargets source config with
        | mk result linked =>
          cases result with
          | error violation => rfl
          | ok done => exact Registry.resolveRounds_rename naming linked
  rw [run, run, hsettle]
  cases Compilation.settle source config with
  | mk result after =>
    cases result with
    | error violation => rfl
    | ok rounds =>
      simp [Outcome.rename, Compilation.rename, Model.rename, Except.map, lastEvent,
        Registry.rename, Graph.rename]

end Metamodel

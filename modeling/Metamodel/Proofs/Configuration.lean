import Metamodel.Proofs.Naming
import Metamodel.Proofs.Registration.Agreement
import Metamodel.Proofs.Roles
import Metamodel.Proofs.Settlement

/-!
# What a configuration can change

A configuration has a naming and says whether entities need an identity. The naming reaches
nothing but the names of classes. The demand for identities is one check among others, made
wherever an entity is constructed, but all that it comes to is that a compilation fails which
would give a model with an entity without identity (`compile_required_iff`).
`compile_configuration` says both of whole compilations.
-/

namespace Metamodel

variable {source : Source} {naming : Naming}

/-! ### The demand for identities -/

/-- The demand for identities adds one rule: an entity has something in that role. -/
theorem SpecialContext.violation?_required_iff {context : SpecialContext} :
    context.violation? ⟨true, naming⟩ = none ↔
      context.violation? ⟨false, naming⟩ = none ∧
        (context.category = .entity → context.slot .identity ≠ .empty) := by
  have hlax : context.missingIdentity? ⟨false, naming⟩ = none := by simp [missingIdentity?]
  have hstrict : context.missingIdentity? ⟨true, naming⟩ = none ↔
      (context.category = .entity → context.slot .identity ≠ .empty) := by
    simp [missingIdentity?]
  simp only [violation?, Option.or_eq_none_iff, hlax, hstrict, and_true]

/-- A blueprint is legal under the demand exactly when it is without, and is not that of an entity
without identity. -/
theorem Blueprint.ofDeclaration_required_iff {declaration : Declaration} {header : Header}
    {inherited : Option Inherited} {blueprint : Blueprint} :
    Blueprint.ofDeclaration source ⟨true, naming⟩ declaration header inherited = .ok blueprint ↔
      Blueprint.ofDeclaration source ⟨false, naming⟩ declaration header inherited =
          .ok blueprint ∧
        (blueprint.category = .entity → blueprint.specials.get .identity ≠ .empty) := by
  have hslot (props : List PropSpec) :
      (withProps ⟨true, naming⟩ declaration header inherited props).specials.get .identity =
        (specialContext declaration header inherited props).slot .identity :=
    Specials.get_tabulate ..
  simp only [ofDeclaration_eq_ok_iff, SpecialContext.violation?_required_iff]
  constructor
  · rintro ⟨hancestor, hmembers, props, hprops, hoverride, ⟨hlax, hidentity⟩, rfl⟩
    exact ⟨⟨hancestor, hmembers, props, hprops, hoverride, hlax, rfl⟩,
      fun hentity => hslot props ▸ hidentity hentity⟩
  · rintro ⟨⟨hancestor, hmembers, props, hprops, hoverride, hlax, rfl⟩, hidentity⟩
    exact ⟨hancestor, hmembers, props, hprops, hoverride,
      ⟨hlax, fun hentity => hslot props ▸ hidentity hentity⟩, rfl⟩

/-- What has a lineage under the demand has the same without. -/
theorem Source.HasLineage.of_required {name : String} {lineage : Lineage}
    (h : source.HasLineage ⟨true, naming⟩ name lineage) :
    source.HasLineage ⟨false, naming⟩ name lineage := by
  induction h with
  | root hdeclared hheader hroot hblueprint =>
    exact .root hdeclared hheader hroot (Blueprint.ofDeclaration_required_iff.1 hblueprint).1
  | child hdeclared hheader hancestor _ hblueprint ih =>
    exact .child hdeclared hheader hancestor ih
      (Blueprint.ofDeclaration_required_iff.1 hblueprint).1

namespace Graph

variable {graph : Graph}

/-- Every entity has a property in the role of its identity. -/
def EntitiesIdentified (graph : Graph) : Prop :=
  ∀ type ∈ graph.types, type.category = .entity →
    ∃ key, type.specials.get .identity = some key

/-- Where every entity has its identity, the lineages of registered types meet the demand. -/
theorem Places.hasLineage_required {type : TypeNode} {lineage : Lineage}
    (h : graph.Places type lineage) (hidentified : graph.EntitiesIdentified) {name : String}
    (hlineage : source.HasLineage ⟨false, naming⟩ name lineage) :
    source.HasLineage ⟨true, naming⟩ name lineage := by
  have hfilled {type : TypeNode} {blueprint : Blueprint} {inherited : Special → Option PropKey}
      (hbuilds : graph.Builds type blueprint inherited) :
      blueprint.category = .entity → blueprint.specials.get .identity ≠ .empty := by
    intro hentity hempty
    obtain ⟨key, hkey⟩ := hidentified type (List.mem_of_getElem? hbuilds.key)
      (hbuilds.category.trans hentity)
    rw [hbuilds.specials, hempty] at hkey
    cases hkey
  induction h generalizing name with
  | root hbuilds _ =>
    obtain ⟨declaration, header, hdeclared, hheader, hroot, hblueprint⟩ := hlineage.root_inv
    exact .root hdeclared hheader hroot
      (Blueprint.ofDeclaration_required_iff.2 ⟨hblueprint, hfilled hbuilds⟩)
  | child hbuilds _ _ hplaces ih =>
    obtain ⟨ancestor, habove⟩ := hplaces.exists_lineage hlineage
    obtain ⟨declaration, header, hdeclared, hheader, hancestor, -, hblueprint⟩ :=
      hlineage.child_inv habove
    exact .child hdeclared hheader hancestor (ih habove)
      (Blueprint.ofDeclaration_required_iff.2 ⟨hblueprint, hfilled hbuilds⟩)

end Graph

/-- The names of a source are registered under the demand as they are without, if that leaves every
entity with its identity. -/
theorem Registry.resolveAll_required_iff {registry : Registry} :
    resolveAll source ⟨true, naming⟩ {} = ⟨.ok (), registry⟩ ↔
      resolveAll source ⟨false, naming⟩ {} = ⟨.ok (), registry⟩ ∧
        registry.graph.EntitiesIdentified := by
  constructor
  · intro hregistered
    obtain ⟨hrealizes, -, -⟩ := forEach_resolve .empty hregistered
    refine ⟨?_, hrealizes.roles.identity rfl⟩
    rw [← hregistered, resolveAll, resolveAll]
    refine forEach_resolve_eq (fun name hname => ?_) .empty
    obtain ⟨lineage, hlineage⟩ := resolveAll_ok_iff.1 (congrArg Outcome.result hregistered) name
      hname
    exact ⟨lineage, hlineage, hlineage.of_required⟩
  · rintro ⟨hregistered, hidentified⟩
    obtain ⟨hrealizes, -, hfound⟩ := forEach_resolve .empty hregistered
    rw [← hregistered, resolveAll, resolveAll]
    refine forEach_resolve_eq (fun name hname => ?_) .empty
    obtain ⟨type, htype⟩ := Option.isSome_iff_exists.1 (hfound rfl name hname)
    obtain ⟨hmem, rfl⟩ := hrealizes.find?_eq_some_iff.1 htype
    obtain ⟨lineage, hlineage, hplaces⟩ := hrealizes.placed type hmem
    exact ⟨lineage, hlineage, hplaces.hasLineage_required hidentified hlineage⟩

/-- A compilation under the demand gives the model that it gives without, if every entity of that
has its identity, and no other. -/
theorem compile_required_iff {model : Model} :
    compile source ⟨true, naming⟩ = .ok model ↔
      compile source ⟨false, naming⟩ = .ok model ∧ model.graph.EntitiesIdentified := by
  have htypes {config : Config} {registry : Registry}
      (hregistered : Registry.resolveAll source config {} = ⟨.ok (), registry⟩)
      (hcompile : compile source config = .ok model) :
      registry.graph.types = model.graph.types :=
    Graph.types_eq_of_fresh (compile_settled hregistered hcompile).1
  constructor
  · intro hcompile
    obtain ⟨registry, hregistered⟩ := exists_registered_of_compile hcompile
    obtain ⟨hlax, hidentified⟩ := Registry.resolveAll_required_iff.1 hregistered
    refine ⟨(compile_eq_ok_iff hlax).2 ((compile_eq_ok_iff hregistered).1 hcompile), ?_⟩
    rw [Graph.EntitiesIdentified, ← htypes hregistered hcompile]
    exact hidentified
  · rintro ⟨hcompile, hidentified⟩
    obtain ⟨registry, hregistered⟩ := exists_registered_of_compile hcompile
    rw [Graph.EntitiesIdentified, ← htypes hregistered hcompile] at hidentified
    have hstrict := Registry.resolveAll_required_iff.2 ⟨hregistered, hidentified⟩
    exact (compile_eq_ok_iff hstrict).2 ((compile_eq_ok_iff hregistered).1 hcompile)

/-! ### Both settings -/

/-- Two graphs are the same in everything but the names of classes. -/
structure Graph.SameButNames (graph other : Graph) : Prop where
  types : List.Forall₂ (fun type type' : TypeNode => { type with names := type'.names } = type')
    graph.types other.types
  props : graph.props = other.props
  byName : graph.byName = other.byName

/-- A graph is the same under another naming, but for the names of classes. -/
theorem Graph.sameButNames_rename (naming : Naming) (graph : Graph) :
    graph.SameButNames (graph.rename naming) where
  types := by
    rw [rename, List.forall₂_map_right_iff]
    exact List.forall₂_same.2 fun _ _ => rfl
  props := rfl
  byName := rfl

/-- Under configurations that differ in their naming, a source gives the same violation, or models
with the same rounds and the same graph but for the names of classes, and the same events either
way. Where entities need an identity, it gives the model that it would give without, provided that
every entity of that has one, and otherwise none. -/
theorem compile_configuration (source : Source) :
    (∀ (require : Bool) (naming naming' : Naming),
      (Compilation.run source ⟨require, naming'⟩).events =
        (Compilation.run source ⟨require, naming⟩).events ∧
      (∀ violation, compile source ⟨require, naming⟩ = .error violation →
        compile source ⟨require, naming'⟩ = .error violation) ∧
      ∀ model, compile source ⟨require, naming⟩ = .ok model →
        ∃ model', compile source ⟨require, naming'⟩ = .ok model' ∧
          model'.rounds = model.rounds ∧ model.graph.SameButNames model'.graph) ∧
    ∀ naming model, compile source ⟨true, naming⟩ = .ok model ↔
      compile source ⟨false, naming⟩ = .ok model ∧
        ∀ type ∈ model.graph.types, type.category = .entity →
          ∃ key, type.specials.get .identity = some key := by
  refine ⟨fun require naming naming' => ?_, fun naming model => compile_required_iff⟩
  have hrun : Compilation.run source ⟨require, naming'⟩ =
      (Compilation.run source ⟨require, naming⟩).rename naming' :=
    Compilation.run_rename source ⟨require, naming⟩ naming'
  have hresult : compile source ⟨require, naming'⟩ =
      (compile source ⟨require, naming⟩).map (Model.rename naming') :=
    congrArg Compilation.result hrun
  refine ⟨?_, ?_, ?_⟩
  · rw [hrun]
    rfl
  · intro violation herror
    rw [hresult, herror]
    rfl
  · intro model hmodel
    refine ⟨model.rename naming', ?_, rfl, model.graph.sameButNames_rename naming'⟩
    rw [hresult, hmodel]
    rfl

/-- Notes with a text and no identity. -/
def anonymousNotes : Source where
  declarations := {
    toList := [
      { simpleName := "Note"
        tags := [.entity none]
        members := [{ name := "text", type := .named "string" }] }]
    names_nodup := by decide }

example : (compile anonymousNotes ⟨false, {}⟩).isOk = true ∧
    compile anonymousNotes ⟨true, {}⟩ = .error (.ofType "Note" .identityMissing) := by
  decide +kernel

end Metamodel

import Metamodel.Proofs.Declaration.Set
import Metamodel.Proofs.Lineage.Agreement
import Metamodel.Proofs.OnDemand
import Metamodel.Proofs.Registration.Agreement
import Metamodel.Proofs.Resolution.Growth

/-!
# One more declaration

A declaration that nothing else refers to does not disturb what was declared before. Put at the end
of a source it leaves every other name with its lineage, so that all of these are registered as they
would be without it, and nothing of theirs refers to it, so that they are settled as they would be
without it. A source compiles if it does with one more such declaration, and its graph is where the
larger one begins (`compile_insert`).
-/

namespace Metamodel

namespace Source

/-- Nothing in a source asks for a name: no declaration lists it as an interface or has a member of
that type, and it is not among the further names to compile. -/
structure Ignores (source : Source) (name : String) : Prop where
  interfaces : ∀ other ∈ source.declarations.toList, name ∉ other.interfaces
  types : ∀ other ∈ source.declarations.toList, ∀ member ∈ other.members,
    member.type.innermost ≠ name
  furtherNames : name ∉ source.furtherNames

section Insert

variable {source : Source} {declaration : Declaration} {larger : DeclarationSet} {name : String}
  (hlarger : source.declarations.insert declaration = .ok larger)
include hlarger

/-- Other names are declared as before. -/
theorem declaration?_insert (hne : name ≠ declaration.qualifiedName) :
    (source.withDeclarations larger).declaration? name = source.declaration? name := by
  rw [Source.declaration?, Source.declaration?, withDeclarations,
    DeclarationSet.find?_insert hlarger, if_neg hne]

/-- The names to compile have the new one after the declarations. -/
theorem names_insert : (source.withDeclarations larger).names =
    source.declarations.names ++ declaration.qualifiedName :: source.furtherNames := by
  rw [names, withDeclarations, DeclarationSet.names_insert hlarger, List.append_assoc]
  rfl

variable (hignores : source.Ignores declaration.qualifiedName)
include hignores

/-- The source with one more declaration agrees with the source without it about all other names. -/
theorem agreesWithin_insert :
    (source.withDeclarations larger).AgreesWithin source (· ≠ declaration.qualifiedName) := by
  have hfind {name : String} {other : Declaration} (hne : name ≠ declaration.qualifiedName)
      (hdeclared : (source.withDeclarations larger).declaration? name = some other) :
      other ∈ source.declarations.toList := by
    rw [declaration?_insert hlarger hne] at hdeclared
    exact (DeclarationSet.find?_eq_some_iff.1 hdeclared).1
  have hinterfaces {other : Declaration} (hother : other ∈ source.declarations.toList) :
      ∀ name ∈ other.interfaces, name ≠ declaration.qualifiedName := by
    rintro name hname rfl
    exact hignores.interfaces other hother hname
  refine ⟨fun name => declaration?_insert hlarger, fun hne hdeclared => ⟨?_, ?_⟩,
    fun hne hdeclared => hinterfaces (hfind hne hdeclared)⟩
  · intro name hname
    have hsame := declaration?_insert hlarger (hinterfaces (hfind hne hdeclared) name hname)
    rw [Source.declaration?, Source.declaration?] at hsame
    rw [isImmutable, isImmutable, DeclarationSet.contains, DeclarationSet.contains, hsame]
    rfl
  · intro member hmember
    exact declaration?_insert hlarger (hignores.types _ (hfind hne hdeclared) member hmember)

end Insert

end Source

variable {source : Source} {config : Config} {declaration : Declaration} {larger : DeclarationSet}

/-- Where everything can be registered with one more declaration, it can without, and the graph goes
on from there. -/
theorem Registry.resolveAll_of_insert {whole : Registry}
    (hlarger : source.declarations.insert declaration = .ok larger)
    (hignores : source.Ignores declaration.qualifiedName)
    (hregistered : resolveAll (source.withDeclarations larger) config {} = ⟨.ok (), whole⟩) :
    ∃ part, resolveAll source config {} = ⟨.ok (), part⟩ ∧
      part.graph.Realizes (source.withDeclarations larger) config ∧
      part.graph.Grows whole.graph := by
  have hlineages : ∀ name ∈ source.names, ∃ lineage,
      (source.withDeclarations larger).HasLineage config name lineage ∧
        source.HasLineage config name lineage := by
    intro name hname
    have hne : name ≠ declaration.qualifiedName := by
      rintro rfl
      rcases List.mem_append.1 hname with hdeclared | hfurther
      · exact (DeclarationSet.insert_eq_ok hlarger).1 hdeclared
      · exact hignores.furtherNames hfurther
    have hmem : name ∈ (source.withDeclarations larger).names := by
      rw [Source.names_insert hlarger, List.mem_append, List.mem_cons]
      exact (List.mem_append.1 hname).imp_right .inr
    obtain ⟨lineage, hlineage⟩ := resolveAll_ok_iff.1 (congrArg Outcome.result hregistered) name
      hmem
    exact ⟨lineage, hlineage,
      (Source.agreesWithin_insert hlarger hignores).hasLineage hne hlineage⟩
  rw [resolveAll, Source.names_insert hlarger, forEach_append_eq_ok_iff] at hregistered
  obtain ⟨part, hpart, hrest⟩ := hregistered
  obtain ⟨hrealizes, -, hfound⟩ := forEach_resolve .empty hpart
  obtain ⟨-, ⟨types, props, hadds⟩, -⟩ := forEach_resolve hrealizes hrest
  refine ⟨part, ?_, hrealizes, hadds.grows⟩
  rw [resolveAll, Source.names, forEach_append_eq_ok_iff]
  refine ⟨part, ?_, forEach_resolve_of_registered hrealizes.toIndexed fun name hname => ?_⟩
  · rw [← hpart]
    exact forEach_resolve_eq (fun name hname => hlineages name (List.mem_append_left _ hname))
      .empty
  · -- the further names can be registered, so they are names of declarations
    obtain ⟨lineage, -, hlineage⟩ := hlineages name (List.mem_append_right _ hname)
    obtain ⟨other, hdeclared⟩ := hlineage.declared
    obtain ⟨hmem, rfl⟩ := DeclarationSet.find?_eq_some_iff.1 hdeclared
    exact hfound rfl _ (List.mem_map_of_mem hmem)

/-- Put a declaration of a new name at the end of a source in which nothing asks for that name. If
this compiles, so does the source without it, and the types and properties of its graph are those
with which the larger graph begins: with the same keys, numbers, links, dependencies and rounds. -/
theorem compile_insert {model : Model}
    (hlarger : source.declarations.insert declaration = .ok larger)
    (hignores : source.Ignores declaration.qualifiedName)
    (h : compile (source.withDeclarations larger) config = .ok model) :
    ∃ smaller, compile source config = .ok smaller ∧
      smaller.graph.types <+: model.graph.types ∧ smaller.graph.props <+: model.graph.props := by
  obtain ⟨whole, hwhole⟩ := exists_registered_of_compile h
  obtain ⟨part, hpart, hrealizes, hgrows⟩ :=
    Registry.resolveAll_of_insert hlarger hignores hwhole
  have hcomplete := Registry.resolveAll_complete hpart
  -- what the properties refer to is what they refer to without the new declaration
  have hlinked : part.Linked (source.withDeclarations larger) config := by
    refine ⟨hrealizes, hcomplete.pending, fun {key prop} hkey hdeclared => ?_⟩
    have hreference := congrArg Option.isSome (hrealizes.reference_eq hkey)
    rw [hcomplete.realizes.reference_eq hkey, Option.isSome_map, Option.isSome_map] at hreference
    rwa [hcomplete.registered, hreference]
  obtain ⟨hall, hgrounded⟩ := (exists_compile_ok_iff hwhole).1 ⟨model, h⟩
  have hpartOf := hlinked.partOf (Registry.resolveAll_complete hwhole)
  obtain ⟨rounds, last, hrounds⟩ := hpartOf.resolveRounds_ok hcomplete.healthy hall hgrounded
  have hsmaller : compile source config = .ok ⟨last.graph, rounds⟩ := by
    rw [compile_eq_ok_iff hpart, hrounds]
    exact ⟨rfl, rfl⟩
  -- both graphs are settled, and the one goes on where the other stops
  obtain ⟨hfresh, -, -⟩ := compile_settled hpart hsmaller
  obtain ⟨hfresh', -, -⟩ := compile_settled hwhole h
  have hgrows' : last.graph.Grows model.graph :=
    (Graph.Grows.of_fresh_eq hfresh.symm).trans (hgrows.trans (.of_fresh_eq hfresh'))
  exact ⟨_, hsmaller, (compile_finished hsmaller).isPrefix (compile_finished h)
    (hrealizes.of_fresh_eq hfresh) hgrows'⟩

/-- A note on an order, with a heading that is computed from the title of the order. -/
def orderNote : Declaration where
  simpleName := "Note"
  tags := [.entity none]
  members := [
    { name := "id", type := .named "int", tags := [.id] },
    { name := "order", type := .named "Order" },
    { name := "heading", type := .named "string", hasBody := true
      tags := [.formula { dependencies := ["order.title"] }] }]

/-- Orders of customers, and notes on orders. -/
def ordersWithNotes : DeclarationSet where
  toList := orders.declarations.toList ++ [orderNote]
  names_nodup := by decide

theorem compile_insert_orders :
    ∃ model smaller, orders.declarations.insert orderNote = .ok ordersWithNotes ∧
      orders.Ignores orderNote.qualifiedName ∧
      compile (orders.withDeclarations ordersWithNotes) {} = .ok model ∧
      model.graph.types.map (·.qualifiedName) = ["Order", "Customer", "Note"] ∧
      model.graph.props.map (·.resolution.round?) =
        [some 1, some 2, some 1, some 1, some 1, some 1, some 2, some 1] ∧
      compile orders {} = .ok smaller ∧
      smaller.graph.types.map (·.qualifiedName) = ["Order", "Customer"] ∧
      smaller.graph.types <+: model.graph.types ∧ smaller.graph.props <+: model.graph.props := by
  have hlarger : orders.declarations.insert orderNote = .ok ordersWithNotes := rfl
  have hignores : orders.Ignores orderNote.qualifiedName := ⟨by decide, by decide, by decide⟩
  have hmodel : (compile (orders.withDeclarations ordersWithNotes) {}).map (fun model =>
      (model.graph.types.map (·.qualifiedName), model.graph.props.map (·.resolution.round?))) =
      .ok (["Order", "Customer", "Note"],
        [some 1, some 2, some 1, some 1, some 1, some 1, some 2, some 1]) := by decide +kernel
  rw [Except.map_eq_ok_iff] at hmodel
  obtain ⟨model, hmodel, hpair⟩ := hmodel
  obtain ⟨hnames, hrounds⟩ := Prod.mk.inj hpair
  obtain ⟨smaller, hsmaller, htypes, hprops⟩ := compile_insert hlarger hignores hmodel
  have hsmallerNames : (compile orders {}).map (·.graph.types.map (·.qualifiedName)) =
      .ok ["Order", "Customer"] := by decide +kernel
  rw [hsmaller] at hsmallerNames
  exact ⟨model, smaller, hlarger, hignores, hmodel, hnames, hrounds, hsmaller,
    Except.ok.inj hsmallerNames, htypes, hprops⟩

end Metamodel

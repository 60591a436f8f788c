import Mathlib.Data.List.Nodup
import Metamodel.Registry.Resolution

/-!
# Graphs before resolution

Resolution changes nothing of a graph but how far each property has come. `Graph.fresh` takes
that away again: what a graph says about types, names and views it says of the fresh graph as
well, so two graphs with one fresh graph agree on all of it. Read `fresh_setResolution` first.
-/

namespace Metamodel

/-- A search finds an item if all that it would stop at have the key of that item, and no two
items have one key. -/
theorem List.find?_eq_some_of_nodup_map {α β : Type} {f : α → β} {p : α → Bool} {items : List α}
    {item : α} (hnodup : (items.map f).Nodup) (hmem : item ∈ items) (hitem : p item = true)
    (hsame : ∀ other ∈ items, p other = true → f other = f item) :
    items.find? p = some item := by
  cases hfound : items.find? p with
  | none => exact absurd hitem (List.find?_eq_none.1 hfound item hmem)
  | some found =>
    have hkey := hsame found (List.mem_of_find?_eq_some hfound) (List.find?_some hfound)
    rw [List.inj_on_of_nodup_map hnodup (List.mem_of_find?_eq_some hfound) hmem hkey]

/-- The property as it was registered, before any step. -/
def Property.fresh (prop : Property) : Property :=
  { prop with resolution := .pending }

namespace Graph

/-- The graph as it was registered, before any property was stepped. -/
def fresh (graph : Graph) : Graph :=
  { graph with props := graph.props.map Property.fresh }

variable (graph : Graph)

@[simp]
theorem type?_fresh (key : TypeKey) : graph.fresh.type? key = graph.type? key := rfl

@[simp]
theorem keyOf?_fresh (name : String) : graph.fresh.keyOf? name = graph.keyOf? name := rfl

@[simp]
theorem find?_fresh (name : String) : graph.fresh.find? name = graph.find? name := rfl

@[simp]
theorem prop?_fresh (key : PropKey) :
    graph.fresh.prop? key = (graph.prop? key).map Property.fresh := by
  simp [prop?, fresh]

@[simp]
theorem length_props_fresh : graph.fresh.props.length = graph.props.length := by
  simp [fresh]

@[simp]
theorem propKeys_fresh : graph.fresh.propKeys = graph.propKeys := by
  simp [propKeys]

@[simp]
theorem label_fresh (key : PropKey) : graph.fresh.label key = graph.label key := by
  rw [label, label, prop?_fresh]
  cases graph.prop? key <;> rfl

@[simp]
theorem isId_fresh (key : PropKey) : graph.fresh.isId key = graph.isId key := by
  rw [isId, isId, prop?_fresh]
  cases graph.prop? key <;> rfl

/-- The merged view of a type does not depend on how far resolution has come. -/
@[simp]
theorem mergedProps_fresh (key : TypeKey) :
    graph.fresh.mergedProps key = graph.mergedProps key := by
  have hlevel : graph.fresh.mergeLevel = graph.mergeLevel := by
    funext inherited own
    have hid : graph.fresh.isId = graph.isId := funext graph.isId_fresh
    simp only [mergeLevel, hid]
  fun_induction Graph.mergedProps graph key with
  | case1 key hkey => rw [mergedProps, type?_fresh, hkey]
  | case2 key type hkey hroot => rw [mergedProps, type?_fresh, hkey]; simp [hroot]
  | case3 key type hkey ancestor hancestor hlt ih =>
    rw [mergedProps, type?_fresh, hkey]
    simp [hancestor, hlt, hlevel, ih]
  | case4 key type hkey ancestor hancestor hlt =>
    rw [mergedProps, type?_fresh, hkey]
    simp [hancestor, hlt]

/-- Nor does the property that a type has under a name. -/
@[simp]
theorem findProp?_fresh (key : TypeKey) (name : String) :
    graph.fresh.findProp? key name = graph.findProp? key name := by
  rw [findProp?, findProp?, mergedProps_fresh]
  congr 1
  funext prop
  rw [prop?_fresh]
  cases graph.prop? prop <;> rfl

/-- A new resolution for a property leaves the fresh graph as it is. -/
@[simp]
theorem fresh_setResolution (key : PropKey) (resolution : Resolution) :
    (graph.setResolution key resolution).fresh = graph.fresh := by
  simp only [fresh, setResolution, modifyProp, mk.injEq, true_and, and_true]
  apply List.ext_getElem?
  intro index
  simp only [List.getElem?_map, List.getElem?_modify]
  cases graph.props[index]? with
  | none => rfl
  | some prop => split <;> rfl

variable {graph} {other : Graph}

/-- Every property of a graph has a key. -/
theorem exists_prop?_eq_some {prop : Property} (h : prop ∈ graph.props) :
    ∃ key, graph.prop? key = some prop := by
  obtain ⟨index, hindex⟩ := List.getElem?_of_mem h
  exact ⟨⟨index⟩, hindex⟩

/-- Graphs with one fresh graph have the same types. -/
theorem types_eq_of_fresh (h : graph.fresh = other.fresh) : graph.types = other.types := by
  show graph.fresh.types = other.fresh.types
  rw [h]

/-- And the same index. -/
theorem byName_eq_of_fresh (h : graph.fresh = other.fresh) : graph.byName = other.byName := by
  show graph.fresh.byName = other.fresh.byName
  rw [h]

/-- Graphs with one fresh graph have the same properties but for their resolution. -/
theorem prop?_fresh_congr (h : graph.fresh = other.fresh) (key : PropKey) :
    (graph.prop? key).map Property.fresh = (other.prop? key).map Property.fresh := by
  rw [← prop?_fresh, ← prop?_fresh, h]

theorem keyOf?_congr (h : graph.fresh = other.fresh) : graph.keyOf? = other.keyOf? := by
  funext name
  rw [← keyOf?_fresh, h, keyOf?_fresh]

theorem find?_congr (h : graph.fresh = other.fresh) : graph.find? = other.find? := by
  funext name
  rw [← find?_fresh, h, find?_fresh]

theorem type?_congr (h : graph.fresh = other.fresh) : graph.type? = other.type? := by
  funext key
  rw [← type?_fresh, h, type?_fresh]

theorem typeName_congr (h : graph.fresh = other.fresh) : graph.typeName = other.typeName := by
  funext key
  rw [typeName, typeName, type?_congr h]

theorem findProp?_congr (h : graph.fresh = other.fresh) : graph.findProp? = other.findProp? := by
  funext key name
  rw [← findProp?_fresh, h, findProp?_fresh]

theorem label_congr (h : graph.fresh = other.fresh) : graph.label = other.label := by
  funext key
  rw [← label_fresh, h, label_fresh]

theorem propKeys_congr (h : graph.fresh = other.fresh) : graph.propKeys = other.propKeys := by
  rw [← propKeys_fresh, h, propKeys_fresh]

end Graph

end Metamodel

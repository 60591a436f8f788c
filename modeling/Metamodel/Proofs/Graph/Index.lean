import Metamodel.Proofs.Graph.Fresh
import Metamodel.Registry.Registration

/-!
# The index of a graph

Names lead to types by way of the index of a graph, which is written apart from the types.
`Graph.Indexed` says that the two are in step: the index has the key of every type under the name
of the type, and no other key. Then the type found under a name is the one that has it
(`Indexed.find?_eq_some_iff`). The index stays in step when a type of a new name is added
(`Indexed.add`), and nothing else writes to it.
-/

namespace Metamodel

namespace Graph

variable {graph after : Graph} {type : TypeNode} {name : String}

/-- An added type is found in the index, where it hides nothing but its own name. -/
theorem keyOf?_add (graph : Graph) (blueprint : Blueprint) (ancestor : Option TypeKey)
    (name : String) :
    (graph.add blueprint ancestor).keyOf? name =
      if name = blueprint.qualifiedName then some graph.nextTypeKey else graph.keyOf? name := by
  simp only [keyOf?, add, List.lookup_cons]
  by_cases hname : name = blueprint.qualifiedName
  · simp [hname]
  · simp [hname, beq_false_of_ne hname]

/-- The types of a graph stay where they are when one is added behind them. -/
theorem type?_add (graph : Graph) (blueprint : Blueprint) (ancestor : Option TypeKey)
    (key : TypeKey) :
    (graph.add blueprint ancestor).type? key =
      if key = graph.nextTypeKey then some (graph.placeType blueprint ancestor)
      else graph.type? key := by
  obtain ⟨index⟩ := key
  rw [type?, add, List.getElem?_append]
  by_cases hlt : index < graph.types.length
  · simp [hlt, nextTypeKey, Nat.ne_of_lt hlt, type?]
  · by_cases heq : index = graph.types.length
    · simp [heq, nextTypeKey]
    · have hpast : index - graph.types.length ≠ 0 := by omega
      simp [hlt, heq, nextTypeKey, type?, hpast]

/-- The index has the keys of the types, each under the name of its type, and types know their
keys. -/
structure Indexed (graph : Graph) : Prop where
  key : ∀ {key : TypeKey} {type : TypeNode}, graph.type? key = some type → type.key = key
  keyOf?_eq_some_iff : ∀ {name : String} {key : TypeKey}, graph.keyOf? name = some key ↔
    ∃ type, graph.type? key = some type ∧ type.qualifiedName = name

namespace Indexed

/-- A type is at its own key. -/
theorem type?_key (h : graph.Indexed) (htype : type ∈ graph.types) :
    graph.type? type.key = some type := by
  obtain ⟨index, hindex⟩ := List.getElem?_of_mem htype
  have hat : graph.type? ⟨index⟩ = some type := hindex
  rwa [h.key hat]

/-- The type found under a name is the one that has it. -/
theorem find?_eq_some_iff (h : graph.Indexed) :
    graph.find? name = some type ↔ type ∈ graph.types ∧ type.qualifiedName = name := by
  rw [find?, Option.bind_eq_some_iff]
  constructor
  · rintro ⟨key, hkey, htype⟩
    obtain ⟨other, hother, rfl⟩ := h.keyOf?_eq_some_iff.1 hkey
    cases hother.symm.trans htype
    exact ⟨List.mem_of_getElem? htype, rfl⟩
  · rintro ⟨hmem, hname⟩
    have htype := h.type?_key hmem
    exact ⟨type.key, h.keyOf?_eq_some_iff.2 ⟨type, htype, hname⟩, htype⟩

/-- A type is found under its name. -/
theorem find?_qualifiedName (h : graph.Indexed) (htype : type ∈ graph.types) :
    graph.find? type.qualifiedName = some type :=
  h.find?_eq_some_iff.2 ⟨htype, rfl⟩

/-- The key of a name is that of the type found under it. -/
theorem keyOf?_eq (h : graph.Indexed) (name : String) :
    graph.keyOf? name = (graph.find? name).map (·.key) := by
  rw [find?]
  cases hkey : graph.keyOf? name with
  | none => rfl
  | some key =>
    obtain ⟨type, htype, -⟩ := h.keyOf?_eq_some_iff.1 hkey
    rw [Option.bind_some, htype, Option.map_some, h.key htype]

/-- Names without a key are those of no type. -/
theorem keyOf?_eq_none_iff (h : graph.Indexed) :
    graph.keyOf? name = none ↔ name ∉ graph.types.map (·.qualifiedName) := by
  rw [h.keyOf?_eq, Option.map_eq_none_iff, Option.eq_none_iff_forall_ne_some]
  simp only [ne_eq, h.find?_eq_some_iff, List.mem_map, not_exists]

/-- The index of an empty graph is empty. -/
theorem empty : Indexed {} where
  key h := by simp [type?] at h
  keyOf?_eq_some_iff := by simp [keyOf?, type?]

/-- Resolution leaves the index and the types as they are. -/
theorem congr (h : graph.Indexed) (heq : graph.fresh = after.fresh) : after.Indexed where
  key hkey := h.key (by rwa [type?_congr heq])
  keyOf?_eq_some_iff := by
    intro name key
    rw [← keyOf?_congr heq, ← type?_congr heq]
    exact h.keyOf?_eq_some_iff

/-- Adding a type of a new name keeps the index in step. -/
theorem add (h : graph.Indexed) {blueprint : Blueprint} (ancestor : Option TypeKey)
    (hnew : graph.keyOf? blueprint.qualifiedName = none) :
    (graph.add blueprint ancestor).Indexed where
  key := by
    intro key type hkey
    rw [type?_add] at hkey
    split at hkey
    · next hnext =>
      cases hkey
      exact hnext.symm
    · exact h.key hkey
  keyOf?_eq_some_iff := by
    intro name key
    have hvacant : graph.type? graph.nextTypeKey = none :=
      List.getElem?_eq_none (Nat.le_refl graph.types.length)
    rw [keyOf?_add, type?_add]
    split
    · next hname =>
      subst hname
      rw [Option.some.injEq]
      constructor
      · rintro rfl
        exact ⟨_, if_pos rfl, rfl⟩
      · rintro ⟨type, htype, hsame⟩
        by_contra hother
        -- a type elsewhere was there before, and none had the name
        rw [if_neg (Ne.symm hother)] at htype
        have hfound := h.keyOf?_eq_some_iff.2 ⟨type, htype, hsame⟩
        rw [hnew] at hfound
        cases hfound
    · next hname =>
      rw [h.keyOf?_eq_some_iff]
      refine exists_congr fun type => and_congr_left fun hsame => ?_
      split
      · next hnext =>
        -- the added type has another name, and there was nothing in its place
        rw [hnext, hvacant, Option.some.injEq]
        constructor
        · rintro ⟨⟩
        · rintro rfl
          exact absurd hsame.symm hname
      · rfl

end Indexed

end Graph

end Metamodel

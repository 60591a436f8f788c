import Metamodel.Declaration.Set
import Metamodel.Proofs.Graph.Fresh

/-!
# What declaration sets hold

A declaration set is asked for its names in order and for the declaration of a name. An insertion
puts the declaration last or refuses it, because its name is taken (`insert_cases`). However many
declarations are offered to a set, also where some of them are refused, it holds those that were
accepted, in order, and finds the first that was offered under a name (`Collects.offerAll`).
-/

namespace Metamodel

namespace Declaration

/-- A declaration spells a name: it is in no package and has the name as its simple name, or the
name is cut at one of its dots into package and simple name. -/
def Spells (declaration : Declaration) (name : String) : Prop :=
  declaration.package = "" ∧ declaration.simpleName = name ∨
    declaration.package ≠ "" ∧ declaration.package ++ "." ++ declaration.simpleName = name

/-- A declaration spells its qualified name and no other. -/
theorem spells_iff {declaration : Declaration} {name : String} :
    declaration.Spells name ↔ declaration.qualifiedName = name := by
  rw [Spells, qualifiedName, qualify]
  split
  · next hempty => simp only [hempty, true_and, ne_eq, not_true, false_and, or_false]
  · next hpackage => simp only [hpackage, false_and, ne_eq, not_false_eq_true, true_and, false_or]

/-- A declaration is the first of its name in a list. -/
def IsFirst (declaration : Declaration) (declarations : List Declaration) : Prop :=
  ∃ before after, declarations = before ++ declaration :: after ∧
    ∀ other ∈ before, other.qualifiedName ≠ declaration.qualifiedName

/-- A search by name stops at the first declaration of that name. -/
theorem find?_eq_some_iff_isFirst {declarations : List Declaration} {name : String}
    {declaration : Declaration} :
    declarations.find? (fun other => other.qualifiedName = name) = some declaration ↔
      declaration.qualifiedName = name ∧ declaration.IsFirst declarations := by
  rw [List.find?_eq_some_iff_append]
  constructor
  · rintro ⟨hname, before, after, heq, hbefore⟩
    obtain rfl : declaration.qualifiedName = name := by simpa using hname
    exact ⟨rfl, before, after, heq, fun other hother => by simpa using hbefore other hother⟩
  · rintro ⟨rfl, before, after, heq, hbefore⟩
    exact ⟨by simp, before, after, heq, fun other hother => by simpa using hbefore other hother⟩

end Declaration

namespace DeclarationSet

variable {set larger other last : DeclarationSet} {declaration : Declaration} {name : String}

/-! ## Names and declarations of one set -/

/-- A declaration set finds a declaration exactly under its qualified name. -/
theorem find?_eq_some_iff :
    set.find? name = some declaration ↔
      declaration ∈ set.toList ∧ declaration.qualifiedName = name := by
  constructor
  · intro hfound
    exact ⟨List.mem_of_find?_eq_some hfound, by simpa using List.find?_some hfound⟩
  · rintro ⟨hmem, rfl⟩
    refine List.find?_eq_some_of_nodup_map set.names_nodup hmem (by simp) ?_
    intro other _ hother
    simpa using hother

/-- Nothing is found under a name that is not listed. -/
theorem find?_eq_none_iff : set.find? name = none ↔ name ∉ set.names := by
  simp only [find?, names, List.find?_eq_none, List.mem_map, decide_eq_true_eq, not_exists, not_and]

/-- Something is found under every name that is listed. -/
theorem isSome_find?_iff : (set.find? name).isSome ↔ name ∈ set.names := by
  rw [Option.isSome_iff_ne_none, ne_eq, find?_eq_none_iff, not_not]

/-- There are as many names as declarations. -/
theorem length_names (set : DeclarationSet) : set.names.length = set.size := by
  rw [names, List.length_map, size]

/-- A set has nothing beyond its declarations. -/
theorem eq_of_toList_eq (h : set.toList = other.toList) : set = other := by
  cases set
  cases other
  cases h
  rfl

/-! ## One insertion -/

/-- A declaration is put last, or it is refused because its name is taken. -/
theorem insert_cases (set : DeclarationSet) (declaration : Declaration) :
    (declaration.qualifiedName ∉ set.names ∧
      ∃ larger, set.insert declaration = .ok larger ∧
        larger.toList = set.toList ++ [declaration]) ∨
    (declaration.qualifiedName ∈ set.names ∧
      set.insert declaration = .error (.ofType declaration.qualifiedName .redeclared)) := by
  rw [insert]
  split
  · next hnew => exact .inl ⟨hnew, _, rfl, rfl⟩
  · next htaken => exact .inr ⟨not_not.1 htaken, rfl⟩

/-- Insertion puts a declaration of a new name last. -/
theorem insert_eq_ok (h : set.insert declaration = .ok larger) :
    declaration.qualifiedName ∉ set.names ∧ larger.toList = set.toList ++ [declaration] := by
  obtain ⟨hnew, _, hlarger, hlist⟩ | ⟨-, hrefused⟩ := set.insert_cases declaration
  · cases hlarger.symm.trans h
    exact ⟨hnew, hlist⟩
  · cases hrefused.symm.trans h

/-- The new name is listed last. -/
theorem names_insert (h : set.insert declaration = .ok larger) :
    larger.names = set.names ++ [declaration.qualifiedName] := by
  rw [names, (insert_eq_ok h).2, List.map_append]
  rfl

/-- The new declaration is found under its name, and the others as before. -/
theorem find?_insert (h : set.insert declaration = .ok larger) (name : String) :
    larger.find? name =
      if name = declaration.qualifiedName then some declaration else set.find? name := by
  obtain ⟨hnew, hlist⟩ := insert_eq_ok h
  rw [find?, hlist, List.find?_append, List.find?_singleton]
  by_cases hname : name = declaration.qualifiedName
  · subst hname
    have hnone : set.toList.find? _ = none := find?_eq_none_iff.2 hnew
    simp [hnone]
  · simp [find?, hname, Ne.symm hname]

/-! ## Many insertions -/

/-- Declarations that are all accepted stand in order behind those that were there. -/
theorem insertAll_eq_ok {declarations : List Declaration}
    (h : set.insertAll declarations = .ok last) : last.toList = set.toList ++ declarations := by
  induction declarations generalizing set with
  | nil =>
    cases h
    rw [List.append_nil]
  | cons declaration rest ih =>
    rw [insertAll] at h
    obtain ⟨-, larger, hlarger, hlist⟩ | ⟨-, hrefused⟩ := set.insert_cases declaration
    · rw [hlarger] at h
      rw [ih h, hlist, List.append_assoc]
      rfl
    · rw [hrefused] at h
      cases h

/-- All of a list of declarations are accepted if and only if no name comes twice. -/
theorem exists_insertAll_ok_iff {declarations : List Declaration} :
    (∃ last, set.insertAll declarations = .ok last) ↔
      ((set.toList ++ declarations).map Declaration.qualifiedName).Nodup := by
  induction declarations generalizing set with
  | nil =>
    rw [List.append_nil]
    exact ⟨fun _ => set.names_nodup, fun _ => ⟨set, rfl⟩⟩
  | cons declaration rest ih =>
    rw [insertAll]
    obtain ⟨-, larger, hlarger, hlist⟩ | ⟨htaken, hrefused⟩ := set.insert_cases declaration
    · rw [hlarger, List.append_cons set.toList, ← hlist]
      exact ih
    · rw [hrefused, List.map_append, List.map_cons, List.nodup_append]
      constructor
      · rintro ⟨last, h⟩
        cases h
      · rintro ⟨-, -, hdisjoint⟩
        -- the name is one of the set and comes again
        exact absurd rfl (hdisjoint _ htaken _ List.mem_cons_self)

/-- A list of declarations makes a set if and only if their names are distinct. -/
theorem exists_ofList_ok_iff {declarations : List Declaration} :
    (∃ set, ofList declarations = .ok set) ↔
      (declarations.map Declaration.qualifiedName).Nodup :=
  exists_insertAll_ok_iff

/-- The set of the declarations of a set is that set. -/
theorem ofList_toList (set : DeclarationSet) : ofList set.toList = .ok set := by
  obtain ⟨other, hother⟩ := exists_ofList_ok_iff.2 set.names_nodup
  rw [hother, eq_of_toList_eq (insertAll_eq_ok hother : other.toList = set.toList)]

/-! ## Declarations that are offered one after the other -/

/-- What there is after a declaration was offered to a set: the set with the declaration, or the
same set where the declaration is refused. -/
def offer (set : DeclarationSet) (declaration : Declaration) : DeclarationSet :=
  match set.insert declaration with
  | .ok larger => larger
  | .error _ => set

/-- What there is after declarations were offered to a set one after the other. -/
def offerAll (set : DeclarationSet) (declarations : List Declaration) : DeclarationSet :=
  declarations.foldl offer set

/-- The declarations that are accepted when they are offered to a set one after the other. -/
def accepted (set : DeclarationSet) : List Declaration → List Declaration
  | [] => []
  | declaration :: rest =>
    match set.insert declaration with
    | .ok larger => declaration :: larger.accepted rest
    | .error _ => set.accepted rest

/-- A set holds some of the declarations that were offered to it, in order, and finds the first
that was offered under a name. -/
structure Collects (set : DeclarationSet) (held offered : List Declaration) : Prop where
  toList_eq : set.toList = held
  find?_eq : ∀ name, set.find? name = offered.find? fun other => other.qualifiedName = name

variable {held offered : List Declaration}

/-- A set that is made of a list collects all of it. -/
theorem Collects.of_ofList {initial : List Declaration} (h : ofList initial = .ok set) :
    set.Collects initial initial := by
  have hlist : set.toList = initial := insertAll_eq_ok h
  exact ⟨hlist, fun name => by rw [find?, hlist]⟩

/-- A declaration that is accepted is the first of its name. -/
theorem Collects.insert (h : set.Collects held offered)
    (hlarger : set.insert declaration = .ok larger) :
    larger.Collects (held ++ [declaration]) (offered ++ [declaration]) := by
  obtain ⟨-, hlist⟩ := insert_eq_ok hlarger
  refine ⟨by rw [hlist, h.toList_eq], fun name => ?_⟩
  rw [find?, hlist, List.find?_append, List.find?_append, ← h.find?_eq name]
  rfl

/-- A declaration that is refused comes behind another of its name. -/
theorem Collects.refuse (h : set.Collects held offered)
    (htaken : declaration.qualifiedName ∈ set.names) :
    set.Collects held (offered ++ [declaration]) := by
  refine ⟨h.toList_eq, fun name => ?_⟩
  rw [List.find?_append, ← h.find?_eq name, List.find?_singleton]
  by_cases hname : declaration.qualifiedName = name
  · subst hname
    obtain ⟨found, hfound⟩ := Option.isSome_iff_exists.1 (isSome_find?_iff.2 htaken)
    rw [hfound, Option.some_or]
  · simp [hname]

/-- A set goes on to collect what is offered to it: the first of every new name. -/
theorem Collects.offerAll (h : set.Collects held offered) (declarations : List Declaration) :
    (set.offerAll declarations).Collects (held ++ set.accepted declarations)
      (offered ++ declarations) := by
  -- what was held and offered so far moves on with the set
  induction declarations generalizing set held offered with
  | nil => simpa [DeclarationSet.offerAll, accepted] using h
  | cons declaration rest ih =>
    rw [DeclarationSet.offerAll, List.foldl_cons, offer, accepted, List.append_cons offered]
    obtain ⟨-, larger, hlarger, -⟩ | ⟨htaken, hrefused⟩ := set.insert_cases declaration
    · rw [hlarger, List.append_cons held]
      exact ih (h.insert hlarger)
    · rw [hrefused]
      exact ih (h.refuse htaken)

end DeclarationSet

end Metamodel

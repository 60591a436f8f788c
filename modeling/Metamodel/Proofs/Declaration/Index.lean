import Metamodel.Declaration.Index
import Metamodel.Proofs.Declaration.Set

/-!
# The names in order and the declarations by name stay in step

An index lists names in one place and finds declarations in another. Nothing in its type relates
the two, and an insertion asks only the second whether a name is taken. They are in step as long
as some declaration set has both of them as its answers (`Represents`). Every insertion keeps
that, and does what an insertion into the set does (`Represents.insert`); so a list of
declarations makes an index where it makes a set (`exists_ofList_ok_iff`), and whatever is offered
to an index, what is there in the end answers like the set of the accepted declarations
(`offerAll_records`).
-/

namespace Metamodel

namespace DeclarationIndex

variable {index after : DeclarationIndex} {set : DeclarationSet}
  {held offered : List Declaration}

/-- What an index answers is what a declaration set answers. -/
structure Represents (index : DeclarationIndex) (set : DeclarationSet) : Prop where
  order_eq : index.order = set.names
  byName_eq : ∀ name, index.byName[name]? = set.find? name

/-! ## One insertion -/

/-- An insertion is refused where there is a declaration by the name, and leaves the index as it
was; otherwise it writes the name last, and the declaration under it. -/
theorem run_insert (index : DeclarationIndex) (declaration : Declaration) :
    (insert declaration).run index =
      if index.byName.contains declaration.qualifiedName then
        .error (.ofType declaration.qualifiedName .redeclared) index
      else
        .ok () {
          order := index.order ++ [declaration.qualifiedName]
          byName := index.byName.insert declaration.qualifiedName declaration } := by
  rw [insert, EStateM.run_bind, EStateM.run_get]
  by_cases htaken : index.byName.contains declaration.qualifiedName
  · rw [if_pos htaken]
    simp only [htaken]
    rfl
  · rw [if_neg htaken]
    simp only [htaken]
    rfl

/-- Insertions go on where the first leaves off, and stop where it is refused. -/
theorem run_insertAll_cons (index : DeclarationIndex) (declaration : Declaration)
    (rest : List Declaration) :
    (insertAll (declaration :: rest)).run index =
      match (insert declaration).run index with
      | .ok () after => (insertAll rest).run after
      | .error violation after => .error violation after := by
  have hsteps : insertAll (declaration :: rest) = insert declaration >>= fun _ => insertAll rest :=
    rfl
  rw [hsteps, EStateM.run_bind]
  cases (insert declaration).run index <;> rfl

namespace Represents

/-- A name has a declaration in the index where the set lists it. -/
theorem contains_iff (h : index.Represents set) {name : String} :
    index.byName.contains name ↔ name ∈ set.names := by
  rw [Std.HashMap.contains_eq_isSome_getElem?, h.byName_eq, DeclarationSet.isSome_find?_iff]

/-- An insertion into an index does what it does to the set: both go on with the declaration, or
both refuse it and the index stays as it is. -/
theorem insert (h : index.Represents set) (declaration : Declaration) :
    (∃ larger after, set.insert declaration = .ok larger ∧
      (DeclarationIndex.insert declaration).run index = .ok () after ∧
      after.Represents larger) ∨
    (declaration.qualifiedName ∈ set.names ∧
      set.insert declaration = .error (.ofType declaration.qualifiedName .redeclared) ∧
      (DeclarationIndex.insert declaration).run index =
        .error (.ofType declaration.qualifiedName .redeclared) index) := by
  rw [run_insert]
  obtain ⟨hnew, larger, hlarger, -⟩ | ⟨htaken, hrefused⟩ := set.insert_cases declaration
  · rw [if_neg (h.contains_iff.not.2 hnew)]
    refine .inl ⟨larger, _, hlarger, rfl, ?_, fun name => ?_⟩
    · rw [DeclarationSet.names_insert hlarger, h.order_eq]
    · rw [DeclarationSet.find?_insert hlarger, Std.HashMap.getElem?_insert, h.byName_eq]
      simp only [beq_iff_eq, @eq_comm _ name]
  · rw [if_pos (h.contains_iff.2 htaken)]
    exact .inr ⟨htaken, hrefused, rfl⟩

/-- Further insertions go on with both, up to the first that both refuse. -/
theorem insertAll (h : index.Represents set) (declarations : List Declaration) :
    (∃ last after, set.insertAll declarations = .ok last ∧
      (DeclarationIndex.insertAll declarations).run index = .ok () after ∧
      after.Represents last) ∨
    ∃ violation after, set.insertAll declarations = .error violation ∧
      (DeclarationIndex.insertAll declarations).run index = .error violation after := by
  induction declarations generalizing set index with
  | nil => exact .inl ⟨set, index, rfl, rfl, h⟩
  | cons declaration rest ih =>
    rw [DeclarationSet.insertAll, run_insertAll_cons]
    obtain ⟨larger, after, hlarger, hafter, hinto⟩ | ⟨-, hrefused, hstays⟩ := h.insert declaration
    · rw [hlarger, hafter]
      exact ih hinto
    · rw [hrefused, hstays]
      exact .inr ⟨_, index, rfl, rfl⟩

end Represents

/-- An index without names represents the set without declarations. -/
theorem represents_empty : ({} : DeclarationIndex).Represents .empty where
  order_eq := rfl
  byName_eq _ := Std.HashMap.getElem?_empty

/-- The index of a list of declarations represents their set; there is none where they do not
make a set. -/
theorem ofList_cases (declarations : List Declaration) :
    (∃ set index, DeclarationSet.ofList declarations = .ok set ∧
      ofList declarations = .ok index ∧ index.Represents set) ∨
    ∃ violation, DeclarationSet.ofList declarations = .error violation ∧
      ofList declarations = .error violation := by
  rw [DeclarationSet.ofList, ofList]
  obtain ⟨set, index, hset, hindex, h⟩ | ⟨violation, _, hset, hindex⟩ :=
    represents_empty.insertAll declarations
  · rw [hindex]
    exact .inl ⟨set, index, hset, rfl, h⟩
  · rw [hindex]
    exact .inr ⟨violation, hset, rfl⟩

/-- A list of declarations makes an index if and only if their names are distinct. -/
theorem exists_ofList_ok_iff {declarations : List Declaration} :
    (∃ index, ofList declarations = .ok index) ↔
      (declarations.map Declaration.qualifiedName).Nodup := by
  rw [← DeclarationSet.exists_ofList_ok_iff]
  obtain ⟨set, index, hset, hindex, -⟩ | ⟨violation, hset, hindex⟩ := ofList_cases declarations
  · exact ⟨fun _ => ⟨set, hset⟩, fun _ => ⟨index, hindex⟩⟩
  · simp only [hset, hindex, reduceCtorEq, exists_false]

/-! ## Declarations that are offered one after the other -/

/-- What there is after a declaration was offered to an index, accepted or not. -/
def offer (index : DeclarationIndex) (declaration : Declaration) : DeclarationIndex :=
  match (insert declaration).run index with
  | .ok () after => after
  | .error _ after => after

/-- What there is after declarations were offered to an index one after the other. -/
def offerAll (index : DeclarationIndex) (declarations : List Declaration) : DeclarationIndex :=
  declarations.foldl offer index

/-- The declarations that are accepted when they are offered to an index one after the other. -/
def accepted (index : DeclarationIndex) : List Declaration → List Declaration
  | [] => []
  | declaration :: rest =>
    match (insert declaration).run index with
    | .ok () after => declaration :: after.accepted rest
    | .error _ after => after.accepted rest

/-- An index accepts what the set accepts that it represents, and goes on to represent what there
is of the set. -/
theorem Represents.offerAll (h : index.Represents set) (declarations : List Declaration) :
    index.accepted declarations = set.accepted declarations ∧
      (index.offerAll declarations).Represents (set.offerAll declarations) := by
  induction declarations generalizing set index with
  | nil => exact ⟨rfl, h⟩
  | cons declaration rest ih =>
    rw [accepted, DeclarationSet.accepted, DeclarationIndex.offerAll, DeclarationSet.offerAll,
      List.foldl_cons, List.foldl_cons, offer, DeclarationSet.offer]
    obtain ⟨larger, after, hlarger, hafter, hinto⟩ | ⟨-, hrefused, hstays⟩ := h.insert declaration
    · obtain ⟨haccepted, hrest⟩ := ih hinto
      rw [hlarger, hafter]
      exact ⟨congrArg (declaration :: ·) haccepted, hrest⟩
    · rw [hrefused, hstays]
      exact ih h

/-- What an index answers when `offered` was offered to it and `held` was accepted. -/
structure Records (index : DeclarationIndex) (held offered : List Declaration) : Prop where
  /-- The names are those of the accepted declarations, in order. -/
  names_eq : index.names = held.map Declaration.qualifiedName
  names_nodup : index.names.Nodup
  size_eq : index.size = index.names.length
  /-- A name is that of an immutable type if and only if it is listed. -/
  isImmutable_iff : ∀ name, index.isImmutable name ↔ name ∈ index.names
  /-- A name has a declaration if and only if it is listed. -/
  isSome_declaration?_iff : ∀ name, (index.declaration? name).isSome ↔ name ∈ index.names
  /-- The declaration of a name is the first that was offered under it. -/
  declaration?_eq_some_iff : ∀ name declaration, index.declaration? name = some declaration ↔
    declaration.qualifiedName = name ∧ declaration.IsFirst offered
  /-- A declaration is accepted where its name is not listed. Its name comes last, and leads to
  it; the other names lead to where they led. -/
  run_insert_ok : ∀ declaration, declaration.qualifiedName ∉ index.names →
    ∃ after, (insert declaration).run index = .ok () after ∧
      after.names = index.names ++ [declaration.qualifiedName] ∧
      ∀ name, after.declaration? name =
        if name = declaration.qualifiedName then some declaration else index.declaration? name
  /-- A declaration is refused where its name is listed, into whichever package and simple name
  it cuts the name; and then nothing changes. -/
  run_insert_eq_error_iff : ∀ declaration violation after,
    (insert declaration).run index = .error violation after ↔
      ∃ name ∈ index.names, declaration.Spells name ∧ violation = .ofType name .redeclared ∧
        after = index
  /-- The index represents the set that is made of the accepted declarations alone. -/
  represents : ∃ set, DeclarationSet.ofList held = .ok set ∧ index.Represents set

/-- An index that represents a set answers as that set collects declarations. -/
theorem Represents.records (h : index.Represents set) (hset : set.Collects held offered) :
    index.Records held offered where
  names_eq := by rw [names, h.order_eq, DeclarationSet.names, hset.toList_eq]
  names_nodup := by
    rw [names, h.order_eq]
    exact set.names_nodup
  size_eq := rfl
  isImmutable_iff name := by
    rw [isImmutable, declaration?, h.byName_eq, names, h.order_eq, DeclarationSet.isSome_find?_iff]
  isSome_declaration?_iff name := by
    rw [declaration?, h.byName_eq, names, h.order_eq, DeclarationSet.isSome_find?_iff]
  declaration?_eq_some_iff name declaration := by
    rw [declaration?, h.byName_eq, hset.find?_eq, Declaration.find?_eq_some_iff_isFirst]
  run_insert_ok declaration hnew := by
    rw [names, h.order_eq] at hnew
    obtain ⟨larger, after, hlarger, hafter, hinto⟩ | ⟨htaken, -⟩ := h.insert declaration
    · refine ⟨after, hafter, ?_, fun name => ?_⟩
      · rw [names, names, hinto.order_eq, h.order_eq, DeclarationSet.names_insert hlarger]
      · rw [declaration?, declaration?, hinto.byName_eq, h.byName_eq,
          DeclarationSet.find?_insert hlarger]
    · exact absurd htaken hnew
  run_insert_eq_error_iff declaration violation after := by
    simp only [Declaration.spells_iff, names, h.order_eq]
    obtain ⟨larger, _, hlarger, hafter, -⟩ | ⟨htaken, -, hstays⟩ := h.insert declaration
    · rw [hafter]
      constructor
      · intro hrefused
        cases hrefused
      · rintro ⟨_, hlisted, rfl, -⟩
        exact absurd hlisted (DeclarationSet.insert_eq_ok hlarger).1
    · rw [hstays]
      constructor
      · intro hrefused
        cases hrefused
        exact ⟨_, htaken, rfl, rfl, rfl⟩
      · rintro ⟨_, -, rfl, rfl, rfl⟩
        rfl
  represents := ⟨set, by rw [← hset.toList_eq, DeclarationSet.ofList_toList], h⟩

/-- A list of declarations makes an index if and only if their qualified names are distinct. Offer
further declarations to that index, one after the other. Some may be refused; what is there in the
end lists, finds and counts exactly the declarations of the list and those that were accepted. -/
theorem offerAll_records (initial offered : List Declaration) :
    ((∃ index, ofList initial = .ok index) ↔
        (initial.map Declaration.qualifiedName).Nodup) ∧
      ∀ index, ofList initial = .ok index →
        (index.offerAll offered).Records (initial ++ index.accepted offered)
          (initial ++ offered) := by
  refine ⟨exists_ofList_ok_iff, fun index hindex => ?_⟩
  obtain ⟨set, made, hset, hmade, h⟩ | ⟨_, -, hrefused⟩ := ofList_cases initial
  · cases hmade.symm.trans hindex
    obtain ⟨haccepted, hinto⟩ := h.offerAll offered
    have hcollects : set.Collects initial initial := .of_ofList hset
    rw [haccepted]
    exact hinto.records (hcollects.offerAll offered)
  · cases hrefused.symm.trans hindex

/-- Books, and their editions in a package of their own. -/
def catalogue : List Declaration := [
  { package := "app", simpleName := "Book", tags := [.entity none] },
  { package := "app.print", simpleName := "Edition", tags := [.entity none] }]

/-- Two shelves of different names. The rest takes names that there are: of the editions and of the
books, cut in other places, and of the first shelf once more. -/
def additions : List Declaration := [
  { package := "app", simpleName := "print.Edition" },
  { package := "app", simpleName := "Shelf", tags := [.entity none] },
  { simpleName := "app.Book", tags := [.embeddable] },
  { package := "app", simpleName := "Shelf", tags := [.embeddable] },
  { simpleName := "Shelf", tags := [.embeddable] }]

theorem offerAll_records_catalogue :
    ∃ index, ofList catalogue = .ok index ∧
      (index.offerAll additions).names = ["app.Book", "app.print.Edition", "app.Shelf", "Shelf"] ∧
      (index.offerAll additions).declaration? "app.Shelf" =
        some { package := "app", simpleName := "Shelf", tags := [.entity none] } ∧
      (insert { package := "app", simpleName := "print.Edition" }).run
          (index.offerAll additions) =
        .error (.ofType "app.print.Edition" .redeclared) (index.offerAll additions) ∧
      (index.offerAll additions).Records (catalogue ++ index.accepted additions)
        (catalogue ++ additions) := by
  obtain ⟨hmakes, hrecords⟩ := offerAll_records catalogue additions
  obtain ⟨index, hindex⟩ := hmakes.2 (by decide)
  have h := hrecords index hindex
  have haccepted : (index.accepted additions).map Declaration.qualifiedName =
      ["app.Shelf", "Shelf"] := by
    obtain ⟨set, made, hset, hmade, hrepresents⟩ | ⟨_, -, hrefused⟩ := ofList_cases catalogue
    · cases hmade.symm.trans hindex
      rw [(hrepresents.offerAll additions).1]
      cases hset
      decide
    · cases hrefused.symm.trans hindex
  have hnames : (index.offerAll additions).names =
      ["app.Book", "app.print.Edition", "app.Shelf", "Shelf"] := by
    rw [h.names_eq, List.map_append, haccepted]
    rfl
  have hlisted : "app.print.Edition" ∈ (index.offerAll additions).names := by
    rw [hnames]
    decide
  refine ⟨index, hindex, hnames, (h.declaration?_eq_some_iff _ _).2 ⟨rfl, ?_⟩,
    (h.run_insert_eq_error_iff _ _ _).2 ⟨_, hlisted, .inr ⟨by decide, rfl⟩, rfl, rfl⟩, h⟩
  -- the books, the editions and the editions once more were offered before the shelf
  exact ⟨catalogue ++ additions.take 1, additions.drop 2, rfl, by decide⟩

end DeclarationIndex

end Metamodel

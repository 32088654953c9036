import SchemaHeader.Proofs.MemberBlocks
import SchemaHeader.Proofs.Provenance

set_option autoImplicit false

/-! # Members in place and through pointers

A member of a list is read where it stands, as a reference, a set or neither. A pointer to it reads
the same object as a body of its own. **Both come to the same properties, unless the member has a
list of its own**: in place such a list is passed over, through a pointer it is all that counts.

* `Flattens.properties_eq`: without cycles, properties depend on the members alone, and not on how
  their body was reached.
* `Flattens.properties_eq_of_reference`: a member and a reference to it.
* `Resolution.properties_eq_through_pointers`: **a definition and the list of pointers to its
  members.**
* `Resolution.properties_ne_through_pointers`: a member with a list of its own.
-/

namespace SchemaHeader

/-! ## Flattenings without cycles -/

theorem Flattened.append_empty (result : Flattened) : result ++ .empty = result := by
  show Flattened.mk (result.properties ++ []) (result.diagnostics ++ []) = result
  rw [List.append_nil, List.append_nil]

namespace Flattens

variable {document : Document} {definition definition' : String} {path path' : List String}
  {pointer : String}

/-- **Without cycles, properties do not depend on how a body was reached**, nor on the definition
that is being flattened. -/
theorem properties_eq {members : List Member} {first second : Flattened}
    (h : Flattens document definition path pointer members first)
    (h' : Flattens document definition' path' pointer members second)
    (hacyclic : cyclesOf first.diagnostics = []) (hacyclic' : cyclesOf second.diagnostics = []) :
    first.properties = second.properties := by
  -- Both flattenings stay as they are when nothing is being expanded around them.
  have hfirst : Flattens document definition [] pointer members first :=
    h.of_subset hacyclic fun _ hvertex => absurd hvertex List.not_mem_nil
  have hsecond : Flattens document definition' [] pointer members second :=
    h'.of_subset hacyclic' fun _ hvertex => absurd hvertex List.not_mem_nil
  have hsame : first.relabel definition' = second :=
    (hfirst.relabel definition').functional hsecond
  rw [← hsame]
  rfl

/-- A reference comes to the same in any body. -/
theorem of_reference {reference : String} {result : Flattened}
    (h : Flattens document definition path pointer [.reference reference] result)
    (other : String) : Flattens document definition path other [.reference reference] result := by
  cases h with
  | settle hmember hrest =>
      cases hmember with
      | cycle hon =>
          cases hrest
          exact .settle (.cycle hon) .done
      | refused hoff hrefused =>
          cases hrest
          exact .settle (.refused hoff hrefused) .done
  | expand hoff hincludes hinner hrest =>
      cases hrest
      exact .expand hoff hincludes hinner .done

/-- Members come to what the first one comes to, and then to what the others come to. -/
theorem exists_cons {member : Member} {rest : List Member} {result : Flattened}
    (h : Flattens document definition path pointer (member :: rest) result) :
    ∃ first others, Flattens document definition path pointer [member] first ∧
      Flattens document definition path pointer rest others ∧ result = first ++ others := by
  cases h with
  | @settle _ _ _ _ part others hmember hrest =>
      have hfirst := Flattens.settle hmember .done
      rw [Flattened.append_empty] at hfirst
      exact ⟨part, others, hfirst, hrest, rfl⟩
  | @expand _ _ _ _ _ inner others hoff hincludes hinner hrest =>
      have hfirst : Flattens document definition path pointer _ _ :=
        .expand hoff hincludes hinner .done
      rw [Flattened.append_empty] at hfirst
      exact ⟨inner, others, hfirst, hrest, rfl⟩

end Flattens

/-! ## One member -/

/-- How a member is read does not depend on where it stands; only sets know their place. -/
theorem Member.ofJson_object_cases (fields : Json.Fields) :
    (∃ reference, ∀ location, Member.ofJson (.object fields) location = .reference reference) ∨
    (∃ fault, ∀ location, Member.ofJson (.object fields) location = .malformed fault) ∨
    ∀ location, Member.ofJson (.object fields) location = .inline (.ofFields fields location) := by
  unfold Member.ofJson
  simp only
  split
  · rename_i reference _
    exact Or.inl ⟨reference, fun _ => rfl⟩
  · rename_i other _ _
    exact Or.inr (Or.inl ⟨_, fun _ => rfl⟩)
  · exact Or.inr (Or.inr fun _ => rfl)

/-- An object without a list is its own single member. -/
theorem Composition.ofFields_of_isComposable {fields : Json.Fields}
    (hallof : fields.has "allof" = false) (hallOf : fields.has "allOf" = false)
    (h : Composition.isComposable (.object fields) = true) :
    Composition.ofFields fields = ⟨[Member.ofJson (.object fields) ""]⟩ := by
  have hkeys : (fields.has "properties" || fields.has "$ref") = true := by
    simpa [Composition.isComposable, hallof, hallOf] using h
  rw [Composition.ofFields, hallof, hallOf, Bool.or_false, if_neg Bool.false_ne_true, if_pos hkeys]

/-- **A set declares the same in place and at its own pointer.** -/
theorem declared_at_location {pointer location token : String} {front back : List String}
    (hpointer : Pointer.tokens? pointer = some (token :: front))
    (hlocation : Pointer.tokens? location = some back) (fields : Json.Fields) :
    declared (pointer ++ location) (.ofFields fields "")
      = declared pointer (.ofFields fields location) := by
  have htokens := Pointer.tokens?_append hpointer hlocation
  unfold declared
  refine List.map_congr_left fun property _ => ?_
  rw [htokens, hpointer]
  simp only [InlineSchema.ofFields, String.append_empty]
  rfl

namespace Flattens

variable {document : Document} {definition definition' : String} {path path' : List String}
  {pointer pointer' : String}

theorem properties_of_malformed {fault : MemberFault} {result : Flattened}
    (h : Flattens document definition path pointer [.malformed fault] result) :
    result.properties = [] := by
  cases h with
  | settle hmember hrest =>
      cases hmember
      cases hrest
      rfl

theorem properties_of_inline {schema : InlineSchema} {result : Flattened}
    (h : Flattens document definition path pointer [.inline schema] result) :
    result.properties = declared pointer schema := by
  cases h with
  | settle hmember hrest =>
      cases hmember
      cases hrest
      exact List.append_nil _

/-- What is not composable has no properties in place either. -/
theorem properties_of_not_composable {item : Json} {location : String} {result : Flattened}
    (hcomposable : Composition.isComposable item = false)
    (h : Flattens document definition path pointer [Member.ofJson item location] result) :
    result.properties = [] := by
  cases item with
  | object fields =>
      rw [Composition.isComposable, List.any_eq_false] at hcomposable
      have hreference : Json.Fields.get? fields "$ref" = none := by
        simpa [Json.Fields.has] using hcomposable "$ref" (by decide)
      have hproperties : Json.Fields.get? fields "properties" = none := by
        simpa [Json.Fields.has] using hcomposable "properties" (by decide)
      have hmember : Member.ofJson (.object fields) location
          = .inline (.ofFields fields location) := by
        unfold Member.ofJson
        simp only [hreference]
      rw [hmember] at h
      rw [h.properties_of_inline, declared, InlineSchema.ofFields]
      simp only [hproperties, List.map_nil]
  | null => exact h.properties_of_malformed
  | bool => exact h.properties_of_malformed
  | number => exact h.properties_of_malformed
  | string => exact h.properties_of_malformed
  | array => exact h.properties_of_malformed

/-- **A member without a list of its own and a reference to it come to the same properties**, if
neither runs into a cycle. -/
theorem properties_eq_of_reference {item : Json} {reference location token : String}
    {front back : List String} {first second : Flattened}
    (hpointer : Pointer.tokens? pointer = some (token :: front))
    (hlocation : Pointer.tokens? location = some back)
    (hcanonical : Pointer.canonical reference = pointer ++ location)
    (hitem : document.lookup? reference = some item)
    (hdefinition : document.isDefinition (Pointer.canonical reference) = false)
    (hlists : ∀ fields : Json.Fields, item = .object fields →
      fields.has "allof" = false ∧ fields.has "allOf" = false)
    (h : Flattens document definition path pointer [Member.ofJson item location] first)
    (h' : Flattens document definition' path' pointer' [.reference reference] second)
    (hacyclic : cyclesOf first.diagnostics = []) (hacyclic' : cyclesOf second.diagnostics = []) :
    first.properties = second.properties := by
  cases h' with
  | settle hmember hrest =>
      cases hmember with
      | cycle => cases hacyclic'
      | refused _ hrefused =>
          cases hrest
          -- The reference finds the item, so it can only be refused for what the item is.
          cases hrefused with
          | notFound hnone =>
              rw [hitem] at hnone
              cases hnone
          | notComposable hpart _ hcomposable =>
              rw [hitem] at hpart
              cases hpart
              exact h.properties_of_not_composable hcomposable
  | @expand _ _ _ body _ inner _ hoff hincludes hinner hrest =>
      cases hrest
      obtain ⟨part, hpart, hok, hbody⟩ := hincludes
      rw [hitem] at hpart
      cases hpart
      obtain ⟨fields, rfl, rfl⟩ := Composition.ofJson?_eq_some hbody
      obtain ⟨hallof, hallOf⟩ := hlists fields rfl
      have hcomposable : Composition.isComposable (.object fields) = true := by
        rcases hok with hok | hok
        · rw [hdefinition] at hok
          cases hok
        · exact hok
      rw [Composition.ofFields_of_isComposable hallof hallOf hcomposable] at hinner
      rw [Flattened.append_empty] at hacyclic' ⊢
      -- The member is now read twice, below its body and as a body of its own.
      rcases Member.ofJson_object_cases fields with ⟨target, htarget⟩ | ⟨fault, hfault⟩ | hset
      · rw [htarget] at h hinner
        exact (h.of_reference _).properties_eq hinner hacyclic hacyclic'
      · rw [hfault] at h hinner
        rw [h.properties_of_malformed, hinner.properties_of_malformed]
      · rw [hset] at h hinner
        rw [h.properties_of_inline, hinner.properties_of_inline, hcanonical,
          declared_at_location hpointer hlocation]

end Flattens

/-! ## All members -/

namespace Pointer

/-- The reference to an item of the list of the body at `pointer`. -/
def toItem (pointer : String) (i : Nat) : String :=
  "#" ++ pointer ++ "/allof/" ++ toString i

/-- Without its mark, the reference is the pointer of the body and the place of the item. -/
theorem canonical_toItem (pointer : String) (i : Nat) :
    canonical (toItem pointer i) = pointer ++ ("/" ++ "allof" ++ "/" ++ toString i) := by
  have hlist : (toItem pointer i).toList
      = '#' :: (pointer ++ ("/" ++ "allof" ++ "/" ++ toString i)).toList := by
    simp [toItem]
  rw [canonical, hlist]
  exact String.ofList_toList

theorem tokens?_item (i : Nat) :
    tokens? ("/" ++ "allof" ++ "/" ++ toString i) = some ["allof", toString i] := by
  have hplain : escape "allof" = "allof" := by decide +kernel
  have hparts : "/" ++ "allof" ++ "/" ++ toString i = ofField "allof" ++ ofField (toString i) := by
    rw [ofField_of_plain hplain, ofField_of_plain (escape_toString i), String.append_assoc]
  rw [hparts]
  exact tokens?_append (tokens?_ofField "allof") (tokens?_ofField (toString i))

end Pointer

/-- A reference to an item finds the item. -/
theorem Document.lookup?_toItem {document : Document} {pointer : String} {fields : Json.Fields}
    {items : List Json} (hbody : document.root.resolve? pointer = some (.object fields))
    (hitems : fields.get? "allof" = some (.array items)) (i : Nat) :
    document.lookup? (Pointer.toItem pointer i) = items[i]? := by
  have hitem := Pointer.tokens?_item i
  have hlist : (Json.object fields).child? "allof" = some (.array items) := hitems
  rw [lookup?, Pointer.canonical_toItem, Json.resolve?_append hbody hitem, Json.resolve?, hitem,
    Option.bind_some, Json.descend?, hlist, Option.bind_some, Json.descend?, Json.child?,
    Pointer.index?_toString, Option.bind_some]
  cases items[i]? with
  | none => rfl
  | some item => rfl

namespace Composition

/-- A body whose only list is under `allof` has the members of that list. -/
theorem ofFields_of_list {fields : Json.Fields} {items : List Json}
    (hlist : fields.get? "allof" = some (.array items)) (hnone : fields.get? "allOf" = none) :
    ofFields fields = ⟨ofItems "allof" 0 items⟩ := by
  simp [ofFields, ofKey, Json.Fields.has, hlist, hnone]

/-- A list of references is read as one. -/
theorem ofItems_references (key : String) (index : Nat) (references : List String) :
    ofItems key index (references.map fun reference => .object [("$ref", .string reference)])
      = references.map .reference := by
  induction references generalizing index with
  | nil => rfl
  | cons reference rest ih =>
      rw [List.map_cons, List.map_cons, ofItems, ih]
      rfl

end Composition

/-- **The items of a list and the references to them come to the same properties.** -/
theorem Flattens.properties_eq_of_items {document : Document} {definition definition' : String}
    {path path' : List String} {pointer pointer' token : String} {front : List String}
    (hpointer : Pointer.tokens? pointer = some (token :: front))
    (hdefinition : ∀ i,
      document.isDefinition (Pointer.canonical (Pointer.toItem pointer i)) = false)
    {items : List Json} {index : Nat} {first second : Flattened}
    (hitems : ∀ i item, items[i]? = some item →
      document.lookup? (Pointer.toItem pointer (index + i)) = some item)
    (hlists : ∀ fields : Json.Fields, .object fields ∈ items →
      fields.has "allof" = false ∧ fields.has "allOf" = false)
    (h : Flattens document definition path pointer (Composition.ofItems "allof" index items) first)
    (h' : Flattens document definition' path' pointer'
      ((List.range' index items.length).map fun i => .reference (Pointer.toItem pointer i)) second)
    (hacyclic : cyclesOf first.diagnostics = []) (hacyclic' : cyclesOf second.diagnostics = []) :
    first.properties = second.properties := by
  induction items generalizing index first second with
  | nil =>
      cases h
      cases h'
      rfl
  | cons item rest ih =>
      rw [List.length_cons, List.range'_succ, List.map_cons] at h'
      obtain ⟨part, others, hpart, hothers, rfl⟩ := h.exists_cons
      obtain ⟨part', others', hpart', hothers', rfl⟩ := h'.exists_cons
      obtain ⟨hnone, hnoneOthers⟩ := Flattened.acyclic_append.mp hacyclic
      obtain ⟨hnone', hnoneOthers'⟩ := Flattened.acyclic_append.mp hacyclic'
      have hfirst : part.properties = part'.properties := by
        refine properties_eq_of_reference hpointer (Pointer.tokens?_item index)
          (Pointer.canonical_toItem pointer index) (hitems 0 item rfl) (hdefinition index) ?_ hpart
          hpart' hnone hnone'
        rintro fields rfl
        exact hlists fields List.mem_cons_self
      have hrest : others.properties = others'.properties := by
        refine ih (fun i other hother => ?_) (fun fields hmem => ?_) hothers hothers' hnoneOthers
          hnoneOthers'
        · rw [Nat.add_assoc, Nat.add_comm 1 i]
          exact hitems (i + 1) other hother
        · exact hlists fields (List.mem_cons_of_mem _ hmem)
      rw [Flattened.properties_append, Flattened.properties_append, hfirst, hrest]

/-- **One definition has a list, and another one is nothing but the list of references to its
items.** -/
structure Document.PointsToItems (document : Document) (listing pointing : Definition)
    (items : List Json) : Prop where
  listing_mem : listing ∈ document.definitions
  pointing_mem : pointing ∈ document.definitions
  list : ∃ fields : Json.Fields, document.fields.get? listing.name = some (.object fields) ∧
    fields.get? "allof" = some (.array items) ∧ fields.get? "allOf" = none
  references : document.fields.get? pointing.name = some (.object [("allof", .array
    ((List.range items.length).map fun i =>
      .object [("$ref", .string (Pointer.toItem listing.pointer i))]))])

section Read

variable {value : Json} {document : Document} (hread : Document.ofJson value = .ok document)

include hread

/-- The body of a definition is read from the object under its name. -/
theorem Document.body_of_get? (hkeys : value.UniqueKeys) {definition : Definition}
    (h : definition ∈ document.definitions) {fields : Json.Fields}
    (hfields : document.fields.get? definition.name = some (.object fields)) :
    document.root.resolve? definition.pointer = some (.object fields) ∧
      definition.body = Composition.ofFields fields := by
  obtain ⟨_, _, hpointer, _⟩ := exists_field_of_mem hread h
  have hpart : document.root.resolve? definition.pointer = some (.object fields) := by
    rw [hpointer, root, Json.resolve?_ofField, hfields]
  have hbody := bodyAt?_pointer hread hkeys h
  rw [bodyAt?, hpart] at hbody
  exact ⟨hpart, (Option.some.inj hbody).symm⟩

/-- The pointer of an item is too long for a definition. -/
theorem Document.isDefinition_toItem {listing : Definition} (h : listing ∈ document.definitions)
    (i : Nat) :
    document.isDefinition (Pointer.canonical (Pointer.toItem listing.pointer i)) = false := by
  refine Bool.eq_false_iff.mpr fun htrue => ?_
  -- A definition is one token away from the root, an item of its list three.
  obtain ⟨other, hother, hpointer⟩ := isDefinition_iff.mp htrue
  have htokens := Pointer.tokens?_append (tokens?_pointer hread h) (Pointer.tokens?_item i)
  rw [← Pointer.canonical_toItem, hpointer, tokens?_pointer hread hother] at htokens
  simp at htokens

end Read

namespace Resolution

/-- **A member means the same in place and through a pointer to it**, if it has no list of its own.
A definition with a list and the list of references to its items flatten to the same properties,
where neither runs into a cycle. -/
theorem properties_eq_through_pointers {value : Json} {document : Document}
    {listing pointing : Definition} {items : List Json} (hkeys : value.UniqueKeys)
    (hread : Document.ofJson value = .ok document)
    (hpoints : document.PointsToItems listing pointing items)
    (hlists : ∀ fields : Json.Fields, .object fields ∈ items →
      fields.has "allof" = false ∧ fields.has "allOf" = false)
    (hacyclic : cyclesOf (resolve document listing).diagnostics = [])
    (hacyclic' : cyclesOf (resolve document pointing).diagnostics = []) :
    (resolve document listing).properties = (resolve document pointing).properties := by
  obtain ⟨hlisting, hpointing, ⟨fields, hfields, hitems, hnone⟩, hreferences⟩ := hpoints
  obtain ⟨hpart, hbody⟩ := Document.body_of_get? hread hkeys hlisting hfields
  obtain ⟨_, hbody'⟩ := Document.body_of_get? hread hkeys hpointing hreferences
  have hmembers : listing.body.members = Composition.ofItems "allof" 0 items := by
    rw [hbody, Composition.ofFields_of_list hitems hnone]
  have hmembers' : pointing.body.members
      = (List.range' 0 items.length).map fun i =>
        .reference (Pointer.toItem listing.pointer i) := by
    have hlist := Composition.ofItems_references "allof" 0
      ((List.range items.length).map (Pointer.toItem listing.pointer))
    rw [List.map_map, List.map_map, List.range_eq_range'] at hlist
    rw [hbody', Composition.ofFields_of_list rfl rfl, List.range_eq_range']
    exact hlist
  have hwalk : Flattens document listing.name [listing.pointer] listing.pointer
      listing.body.members (flattened document listing) := flattens_walk hread hlisting
  have hwalk' : Flattens document pointing.name [pointing.pointer] pointing.pointer
      pointing.body.members (flattened document pointing) := flattens_walk hread hpointing
  rw [hmembers] at hwalk
  rw [hmembers'] at hwalk'
  refine hwalk.properties_eq_of_items (Document.tokens?_pointer hread hlisting)
    (Document.isDefinition_toItem hread hlisting) (fun i item hitem => ?_) hlists hwalk' hacyclic
    hacyclic'
  rw [Nat.zero_add, Document.lookup?_toItem hpart hitems, hitem]

/-! ## A list and the pointers to it -/

/-- A body with a list. -/
def listingBody (items : List Json) : Json.Fields :=
  [("allof", .array items)]

/-- The references to the items of `A`. -/
def pointingBody (items : List Json) : Json.Fields :=
  [("allof", .array ((List.range items.length).map fun i =>
    .object [("$ref", .string (Pointer.toItem "/A" i))]))]

/-- The definition with the list. -/
def listingStart (items : List Json) : Definition :=
  ⟨"A", "/A", .ofFields (listingBody items)⟩

/-- The definition with the references. -/
def pointingStart (items : List Json) : Definition :=
  ⟨"B", "/B", .ofFields (pointingBody items)⟩

/-- `A` has a list, and `B` refers to its items. -/
def itemsDocument (items : List Json) : Document where
  fields := [("A", .object (listingBody items)), ("B", .object (pointingBody items))]
  definitions := [listingStart items, pointingStart items]

theorem ofJson_itemsDocument (items : List Json) :
    Document.ofJson (itemsDocument items).root = .ok (itemsDocument items) := by
  have hlisting : Pointer.ofField "A" = "/A" := by decide +kernel
  have hpointing : Pointer.ofField "B" = "/B" := by decide +kernel
  simp only [itemsDocument, Document.root, Document.ofJson, Document.readDefinitions,
    Document.readDefinition, Composition.ofJson?, Json.fields?, Option.map_some, hlisting,
    hpointing, listingStart, pointingStart]

theorem pointsToItems_itemsDocument (items : List Json) :
    (itemsDocument items).PointsToItems (listingStart items) (pointingStart items) items where
  listing_mem := List.mem_cons_self
  pointing_mem := List.mem_cons_of_mem _ List.mem_cons_self
  list := ⟨_, rfl, rfl, rfl⟩
  references := rfl

/-- A set, a reference to it, and an entry that is neither. -/
def plainItems : List Json :=
  [.object [("properties", .object [("x", .object [])]), ("required", .array [.string "x"])],
    .object [("$ref", .string "#/A/allof/0")], .null]

/-- In place and through pointers, the property of the set is found twice, both times where the set
stands. -/
theorem properties_eq_through_pointers_plainItems :
    (itemsDocument plainItems).root.UniqueKeys ∧
      Document.ofJson (itemsDocument plainItems).root = .ok (itemsDocument plainItems) ∧
      (itemsDocument plainItems).PointsToItems (listingStart plainItems) (pointingStart plainItems)
        plainItems ∧
      (resolve (itemsDocument plainItems) (listingStart plainItems)).properties
        = List.replicate 2 ⟨⟨"x", .object [], none⟩, true, "A", "/A/allof/0"⟩ ∧
      (resolve (itemsDocument plainItems) (listingStart plainItems)).properties
        = (resolve (itemsDocument plainItems) (pointingStart plainItems)).properties := by
  have hkeys : (itemsDocument plainItems).root.UniqueKeys := by
    simp [itemsDocument, listingBody, pointingBody, plainItems, Document.root, Json.UniqueKeys,
      Json.UniqueKeysFields, Json.UniqueKeysItems, List.range_succ]
  have hlists : ∀ fields : Json.Fields, .object fields ∈ plainItems →
      fields.has "allof" = false ∧ fields.has "allOf" = false := by
    intro fields hmem
    simp only [plainItems, List.mem_cons, List.not_mem_nil, or_false, Json.object.injEq,
      reduceCtorEq] at hmem
    rcases hmem with rfl | rfl
    · decide
    · decide
  refine ⟨hkeys, ofJson_itemsDocument plainItems, pointsToItems_itemsDocument plainItems,
    by decide +kernel, ?_⟩
  exact properties_eq_through_pointers hkeys (ofJson_itemsDocument plainItems)
    (pointsToItems_itemsDocument plainItems) hlists (by decide +kernel) (by decide +kernel)

/-- A set that has a list of its own, an empty one. -/
def nestedItems : List Json :=
  [.object [("properties", .object [("x", .object [])]), ("allof", .array [])]]

/-- **A member with a list of its own does not mean the same through a pointer**: in place it is the
set with its property, and at its pointer it is the empty list. -/
theorem properties_ne_through_pointers :
    (itemsDocument nestedItems).root.UniqueKeys ∧
      Document.ofJson (itemsDocument nestedItems).root = .ok (itemsDocument nestedItems) ∧
      (itemsDocument nestedItems).PointsToItems (listingStart nestedItems)
        (pointingStart nestedItems) nestedItems ∧
      (resolve (itemsDocument nestedItems) (listingStart nestedItems)).diagnostics = [] ∧
      (resolve (itemsDocument nestedItems) (pointingStart nestedItems)).diagnostics = [] ∧
      (resolve (itemsDocument nestedItems) (listingStart nestedItems)).properties
        = [⟨⟨"x", .object [], none⟩, false, "A", "/A/allof/0"⟩] ∧
      (resolve (itemsDocument nestedItems) (pointingStart nestedItems)).properties = [] := by
  have hkeys : (itemsDocument nestedItems).root.UniqueKeys := by
    simp [itemsDocument, listingBody, pointingBody, nestedItems, Document.root, Json.UniqueKeys,
      Json.UniqueKeysFields, Json.UniqueKeysItems]
  refine ⟨hkeys, ofJson_itemsDocument nestedItems, pointsToItems_itemsDocument nestedItems, ?_, ?_,
    ?_, ?_⟩
  · decide +kernel
  · decide +kernel
  · decide +kernel
  · decide +kernel

end Resolution

end SchemaHeader

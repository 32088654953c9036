import SchemaHeader.Proofs.Flattening
import Mathlib.Data.List.Chain
import Mathlib.Logic.Relation

set_option autoImplicit false

/-! # The reference graph of a document

The vertices are the pointers that may be referred to, and there is an edge for every reference
from the body at one of them to another. A walk from a definition does not follow edges back to the
bodies that it is expanding, so **what it comes to are the simple paths of the graph**.

* `exists_entryPath`: whoever gets to a set of vertices gets there along a simple path that enters
  the set with its last step. A cut is never needed on such a path.
* `mem_properties_resolve_iff`, `mem_diagnostics_resolve_iff`: what a walk finds, by the simple
  paths from its definition.
* `resolve_iff_reachable`: **a walk misses nothing that can be reached**, whatever it skips.
-/

namespace SchemaHeader

/-! ## Simple paths -/

section Paths

variable {α : Type} {r : α → α → Prop} {goal : α → Prop}

/-- A simple path from `start` that meets `goal` at its last vertex and not before. -/
structure EntryPath (r : α → α → Prop) (goal : α → Prop) (start : α) (front : List α)
    (last : α) : Prop where
  chain : List.IsChain r (front ++ [last])
  nodup : (front ++ [last]).Nodup
  head : (front ++ [last]).head? = some start
  enters : goal last
  outside : ∀ vertex ∈ front, ¬ goal vertex

/-- A path that comes back to a vertex can start there. -/
theorem EntryPath.cut {start vertex last : α} {front rest : List α}
    (h : EntryPath r goal start (front ++ vertex :: rest) last) :
    EntryPath r goal vertex (vertex :: rest) last where
  chain := by
    have hchain := h.chain
    rw [List.append_assoc] at hchain
    exact hchain.right_of_append
  nodup := by
    have hnodup := h.nodup
    rw [List.append_assoc] at hnodup
    exact hnodup.of_append_right
  head := rfl
  enters := h.enters
  outside := fun other hother => h.outside other (List.mem_append_right _ hother)

/-- A path can start one step earlier, at a vertex that it does not meet. -/
theorem EntryPath.cons {start next last : α} {front : List α}
    (h : EntryPath r goal next front last) (hstep : r start next) (hfront : start ∉ front)
    (hgoal : ¬ goal start) : EntryPath r goal start (start :: front) last where
  chain := by
    rw [List.cons_append]
    refine List.isChain_cons.mpr ⟨fun vertex hvertex => ?_, h.chain⟩
    rw [h.head, Option.mem_some_iff] at hvertex
    exact hvertex ▸ hstep
  nodup := by
    refine List.nodup_cons.mpr ⟨fun hmem => ?_, h.nodup⟩
    rcases List.mem_append.mp hmem with hmem | hmem
    · exact hfront hmem
    · exact hgoal (List.mem_singleton.mp hmem ▸ h.enters)
  head := rfl
  enters := h.enters
  outside := fun other hother => by
    rcases List.mem_cons.mp hother with rfl | hother
    · exact hgoal
    · exact h.outside other hother

/-- **Whoever gets to a set gets there along a simple path that enters it with the last step.** -/
theorem exists_entryPath (goal : α → Prop) {start target : α}
    (h : Relation.ReflTransGen r start target) (htarget : goal target) :
    ∃ front last, EntryPath r goal start front last := by
  induction h using Relation.ReflTransGen.head_induction_on with
  | refl =>
      exact ⟨[], target, List.isChain_singleton target, List.nodup_singleton target, rfl, htarget,
        fun vertex hvertex => absurd hvertex List.not_mem_nil⟩
  | @head start next hstep _ ih =>
      obtain ⟨front, last, hpath⟩ := ih
      -- The path from the next vertex may come back to `start`; what it does before is left out.
      by_cases hgoal : goal start
      · exact ⟨[], start, List.isChain_singleton start, List.nodup_singleton start, rfl, hgoal,
          fun vertex hvertex => absurd hvertex List.not_mem_nil⟩
      · by_cases hfront : start ∈ front
        · obtain ⟨before, after, rfl⟩ := List.append_of_mem hfront
          exact ⟨start :: after, last, hpath.cut⟩
        · exact ⟨start :: front, last, hpath.cons hstep hfront hgoal⟩

end Paths

/-! ## The graph -/

namespace Document

/-- A pointer that may be referred to: it addresses a value, and it is the pointer of a definition
or the value is composable. -/
def Accepts (document : Document) (pointer : String) : Prop :=
  ∃ part, document.root.resolve? pointer = some part ∧
    (document.isDefinition pointer = true ∨ Composition.isComposable part = true)

/-- An edge of the reference graph: a member of the body at `source` refers to `target`. -/
structure RefersTo (document : Document) (source target : String) : Prop where
  source_accepted : document.Accepts source
  target_accepted : document.Accepts target
  exists_reference : ∃ body reference, document.bodyAt? source = some body ∧
    .reference reference ∈ body.members ∧ Pointer.canonical reference = target

/-- One pointer leads to another, over any number of references. -/
def Reachable (document : Document) : String → String → Prop :=
  Relation.ReflTransGen document.RefersTo

end Document

theorem Includes.accepts {document : Document} {reference : String} {body : Composition}
    (h : Includes document reference body) : document.Accepts (Pointer.canonical reference) := by
  obtain ⟨part, hpart, hok, _⟩ := h
  exact ⟨part, hpart, hok⟩

/-- A reference that can be expanded stands for the body at its pointer. -/
theorem Includes.bodyAt? {document : Document} {reference : String} {body : Composition}
    (h : Includes document reference body) :
    document.bodyAt? (Pointer.canonical reference) = some body := by
  obtain ⟨part, hpart, _, hbody⟩ := h
  rw [Document.lookup?] at hpart
  rw [Document.bodyAt?, hpart]
  exact hbody

/-- **A reference is refused exactly if its pointer is not accepted.** -/
theorem exists_refused_iff {document : Document} {reference : String} :
    (∃ failure, Refused document reference failure)
      ↔ ¬ document.Accepts (Pointer.canonical reference) := by
  constructor
  · rintro ⟨failure, hrefused⟩ ⟨part, hpart, hok⟩
    cases hrefused with
    | notFound hnone => rw [Document.lookup?, hpart] at hnone; cases hnone
    | notComposable hpart' hdefinition hcomposable =>
        rw [Document.lookup?, hpart] at hpart'
        cases hpart'
        rw [hdefinition, hcomposable] at hok
        rcases hok with hok | hok
        · cases hok
        · cases hok
  · intro h
    cases hpart : document.lookup? reference with
    | none => exact ⟨_, .notFound hpart⟩
    | some part =>
        refine ⟨_, .notComposable hpart ?_ ?_⟩
        · exact Bool.eq_false_iff.mpr fun hok => h ⟨part, hpart, Or.inl hok⟩
        · exact Bool.eq_false_iff.mpr fun hok => h ⟨part, hpart, Or.inr hok⟩

section Read

variable {value : Json} {document : Document} (hread : Document.ofJson value = .ok document)

include hread

/-- A reference to an accepted pointer can be expanded. -/
theorem exists_includes {reference : String}
    (h : document.Accepts (Pointer.canonical reference)) :
    ∃ body, Includes document reference body := by
  obtain ⟨part, hpart, hok⟩ := h
  obtain ⟨body, hbody⟩ := Document.exists_body_of_accepted hread hpart hok
  exact ⟨body, part, hpart, hok, hbody⟩

/-- The pointer of a definition is a vertex. -/
theorem accepts_pointer (hkeys : value.UniqueKeys) {definition : Definition}
    (h : definition ∈ document.definitions) : document.Accepts definition.pointer := by
  have hbody := Document.bodyAt?_pointer hread hkeys h
  obtain ⟨part, hpart, _⟩ := Option.bind_eq_some_iff.mp hbody
  exact ⟨part, hpart, Or.inl (Document.isDefinition_iff.mpr ⟨definition, h, rfl⟩)⟩

end Read

/-! ## What a flattening comes to -/

/-- From the body at `pointer`, with `path` being expanded, a walk can go over the pointers of
`more` to the body at `last`: each refers to the next one, and none is met twice. -/
structure Visit (document : Document) (path : List String) (pointer : String)
    (more : List String) (last : String) : Prop where
  chain : List.IsChain document.RefersTo (pointer :: more)
  nodup : (path ++ more).Nodup
  last : (pointer :: more).getLast? = some last

/-- Something that a result has if a part of it has it. -/
structure Flattened.Additive (has : Flattened → Prop) : Prop where
  empty : ¬ has .empty
  append : ∀ first second, has (first ++ second) ↔ has first ∨ has second

theorem Flattened.additive_mem_properties (resolved : ResolvedProperty) :
    Flattened.Additive fun result => resolved ∈ result.properties where
  empty := List.not_mem_nil
  append := fun _ _ => List.mem_append

theorem Flattened.additive_mem_diagnostics (diagnostic : Diagnostic) :
    Flattened.Additive fun result => diagnostic ∈ result.diagnostics where
  empty := List.not_mem_nil
  append := fun _ _ => List.mem_append

section Visits

variable {value : Json} {document : Document} {definition : String} {has : Flattened → Prop}

/-- What a member comes to where it stands is in the result. -/
theorem Flattens.has_of_settles (hadd : Flattened.Additive has) {path : List String}
    {pointer : String} {members : List Member} {result part : Flattened} {member : Member}
    (h : Flattens document definition path pointer members result) (hmem : member ∈ members)
    (hsettles : Settles document definition path pointer member part) (hhas : has part) :
    has result := by
  induction h with
  | done => exact absurd hmem List.not_mem_nil
  | settle hmember _ ih =>
      rcases List.mem_cons.mp hmem with rfl | hmem
      · exact (hadd.append _ _).mpr (Or.inl (hmember.functional hsettles ▸ hhas))
      · exact (hadd.append _ _).mpr (Or.inr (ih hmem hsettles))
  | expand hoff hincludes _ _ _ ih =>
      rcases List.mem_cons.mp hmem with rfl | hmem
      · exact absurd hincludes (hsettles.not_includes hoff)
      · exact (hadd.append _ _).mpr (Or.inr (ih hmem hsettles))

/-- What a reference is expanded to is in the result. -/
theorem Flattens.exists_inner (hadd : Flattened.Additive has) {path : List String}
    {pointer reference : String} {members : List Member} {result : Flattened} {body : Composition}
    (h : Flattens document definition path pointer members result)
    (hmem : .reference reference ∈ members) (hoff : Pointer.canonical reference ∉ path)
    (hincludes : Includes document reference body) :
    ∃ inner, Flattens document definition (path ++ [Pointer.canonical reference])
        (Pointer.canonical reference) body.members inner ∧ (has inner → has result) := by
  induction h with
  | done => exact absurd hmem List.not_mem_nil
  | settle hmember _ ih =>
      rcases List.mem_cons.mp hmem with rfl | hmem
      · exact absurd hincludes (hmember.not_includes hoff)
      · obtain ⟨inner, hinner, hhas⟩ := ih hmem hoff
        exact ⟨inner, hinner, fun h => (hadd.append _ _).mpr (Or.inr (hhas h))⟩
  | expand _ hincludes' hinner' _ _ ih =>
      rcases List.mem_cons.mp hmem with heq | hmem
      · cases heq
        cases hincludes.functional hincludes'
        exact ⟨_, hinner', fun h => (hadd.append _ _).mpr (Or.inl h)⟩
      · obtain ⟨inner, hinner, hhas⟩ := ih hmem hoff
        exact ⟨inner, hinner, fun h => (hadd.append _ _).mpr (Or.inr (hhas h))⟩

theorem Visit.here {path : List String} {pointer : String} (hpath : path.Nodup) :
    Visit document path pointer [] pointer where
  chain := List.isChain_singleton pointer
  nodup := by rwa [List.append_nil]
  last := rfl

/-- A visit that starts at the target of a reference is one that starts at its body. -/
theorem Visit.cons {path more : List String} {pointer next last : String}
    (h : Visit document (path ++ [next]) next more last)
    (hstep : document.RefersTo pointer next) :
    Visit document path pointer (next :: more) last where
  chain := List.isChain_cons_cons.mpr ⟨hstep, h.chain⟩
  nodup := by
    have hnodup := h.nodup
    rwa [List.append_assoc] at hnodup
  last := by
    rw [List.getLast?_cons_cons]
    exact h.last

/-- **All that a flattening has comes from a visit.** -/
theorem Flattens.exists_visit (hadd : Flattened.Additive has) {path : List String}
    {pointer : String} {members : List Member} {result : Flattened}
    (h : Flattens document definition path pointer members result) {body : Composition}
    (hbody : document.bodyAt? pointer = some body) (hmembers : ∀ m ∈ members, m ∈ body.members)
    (haccepts : document.Accepts pointer) (hpath : path.Nodup) (hhas : has result) :
    ∃ more last inner member part, Visit document path pointer more last ∧
      document.bodyAt? last = some inner ∧ member ∈ inner.members ∧
      Settles document definition (path ++ more) last member part ∧ has part := by
  -- The members at hand are some of the body at `pointer`; the induction drops them one by one.
  induction h generalizing body with
  | done => exact absurd hhas hadd.empty
  | @settle path pointer member rest part result hmember _ ih =>
      rcases (hadd.append _ _).mp hhas with hhas | hhas
      · refine ⟨[], pointer, body, member, part, .here hpath, hbody,
          hmembers member List.mem_cons_self, ?_, hhas⟩
        rwa [List.append_nil]
      · exact ih hbody (fun m hm => hmembers m (List.mem_cons_of_mem _ hm)) haccepts hpath hhas
  | @expand path pointer reference inner rest _ _ hoff hincludes _ _ ihinner ihrest =>
      rcases (hadd.append _ _).mp hhas with hhas | hhas
      · have hnodup : (path ++ [Pointer.canonical reference]).Nodup :=
          List.nodup_append.mpr ⟨hpath, List.nodup_singleton _, fun a ha b hb heq =>
            hoff (List.mem_singleton.mp hb ▸ heq ▸ ha)⟩
        have hstep : document.RefersTo pointer (Pointer.canonical reference) :=
          ⟨haccepts, hincludes.accepts, body, reference, hbody,
            hmembers _ List.mem_cons_self, rfl⟩
        obtain ⟨more, last, inner', member, part, hvisit, hlast, hmem, hsettles, hpart⟩ :=
          ihinner hincludes.bodyAt? (fun _ hm => hm) hincludes.accepts hnodup hhas
        refine ⟨Pointer.canonical reference :: more, last, inner', member, part,
          hvisit.cons hstep, hlast, hmem, ?_, hpart⟩
        rwa [List.append_assoc] at hsettles
      · exact ihrest hbody (fun m hm => hmembers m (List.mem_cons_of_mem _ hm)) haccepts hpath hhas

/-- **All that a visit comes to is in the flattening.** -/
theorem Flattens.has_of_visit (hread : Document.ofJson value = .ok document)
    (hadd : Flattened.Additive has) {more : List String} {last : String} {inner : Composition}
    {member : Member} {part : Flattened} (hlast : document.bodyAt? last = some inner)
    (hmem : member ∈ inner.members) (hhas : has part) :
    ∀ {path : List String} {pointer : String} {body : Composition} {result : Flattened},
      document.bodyAt? pointer = some body →
      Flattens document definition path pointer body.members result →
      Visit document path pointer more last →
      Settles document definition (path ++ more) last member part → has result := by
  -- The pointers of the visit are off the path one by one, so each reference is expanded.
  induction more with
  | nil =>
      intro path pointer body result hbody hflattens hvisit hsettles
      have heq : pointer = last := Option.some.inj hvisit.last
      subst heq
      rw [hbody] at hlast
      cases hlast
      rw [List.append_nil] at hsettles
      exact hflattens.has_of_settles hadd hmem hsettles hhas
  | cons next more ih =>
      intro path pointer body result hbody hflattens hvisit hsettles
      obtain ⟨hstep, hchain⟩ := List.isChain_cons_cons.mp hvisit.chain
      obtain ⟨body', reference, hbody', href, rfl⟩ := hstep.exists_reference
      rw [hbody] at hbody'
      cases hbody'
      have hoff : Pointer.canonical reference ∉ path := fun hon =>
        (List.nodup_append.mp hvisit.nodup).2.2 _ hon _ List.mem_cons_self rfl
      obtain ⟨next, hincludes⟩ := exists_includes hread hstep.target_accepted
      obtain ⟨result', hflattens', himp⟩ := hflattens.exists_inner hadd href hoff hincludes
      refine himp (ih hincludes.bodyAt? hflattens' ⟨hchain, ?_, ?_⟩ ?_)
      · rw [List.append_assoc]
        exact hvisit.nodup
      · have hl := hvisit.last
        rwa [List.getLast?_cons_cons] at hl
      · rw [List.append_assoc]
        exact hsettles

end Visits

/-! ## Visits and reachability -/

/-- Every vertex of a visit can be reached from where it starts. -/
theorem Visit.reachable_of_mem {document : Document} {path more : List String}
    {pointer last vertex : String} (h : Visit document path pointer more last)
    (hmem : vertex ∈ pointer :: more) : document.Reachable pointer vertex := by
  refine h.chain.induction (document.Reachable pointer) _ ?_ ?_ vertex hmem
  · intro source target hstep hreach
    exact hreach.tail hstep
  · intro _
    exact Relation.ReflTransGen.refl

theorem Visit.last_mem {document : Document} {path more : List String} {pointer last : String}
    (h : Visit document path pointer more last) : last ∈ pointer :: more :=
  List.mem_of_getLast? h.last

/-- What can be reached from a vertex is a vertex. -/
theorem Document.Reachable.accepts {document : Document} {source target : String}
    (h : document.Reachable source target) (hsource : document.Accepts source) :
    document.Accepts target := by
  cases h with
  | refl => exact hsource
  | tail _ hstep => exact hstep.target_accepted

/-- A simple path from a definition is a visit. -/
theorem EntryPath.exists_visit {document : Document} {goal : String → Prop}
    {start last : String} {front : List String}
    (h : EntryPath document.RefersTo goal start front last) :
    ∃ more, start :: more = front ++ [last] ∧ Visit document [start] start more last := by
  have hcons : ∃ more, front ++ [last] = start :: more := by
    cases hpath : front ++ [last] with
    | nil => exact absurd hpath (by simp)
    | cons vertex more =>
        have hhead := h.head
        rw [hpath] at hhead
        exact ⟨more, by rw [Option.some.inj hhead]⟩
  obtain ⟨more, hmore⟩ := hcons
  refine ⟨more, hmore.symm, ?_, ?_, ?_⟩
  · exact hmore ▸ h.chain
  · show (start :: more).Nodup
    exact hmore ▸ h.nodup
  · rw [← hmore, List.getLast?_concat]

/-- **What can be reached is visited.** -/
theorem reachable_iff_exists_visit {document : Document} {start last : String} :
    document.Reachable start last ↔ ∃ more, Visit document [start] start more last := by
  constructor
  · intro h
    obtain ⟨front, last', hpath⟩ := exists_entryPath (· = last) h rfl
    obtain ⟨more, _, hvisit⟩ := hpath.exists_visit
    exact ⟨more, hpath.enters ▸ hvisit⟩
  · rintro ⟨more, hvisit⟩
    exact hvisit.reachable_of_mem hvisit.last_mem

/-! ## What a walk finds -/

namespace Resolution

section Resolve

variable {value : Json} {document : Document} {start : Definition}
  (hkeys : value.UniqueKeys) (hread : Document.ofJson value = .ok document)
  (hstart : start ∈ document.definitions)

include hkeys hread hstart

/-- What a walk has found is what the members of the visited bodies come to. -/
theorem has_resolve_iff {has : Flattened → Prop} (hadd : Flattened.Additive has) :
    has (flattenedOf (walk document start)) ↔
      ∃ more last body member part, Visit document [start.pointer] start.pointer more last ∧
        document.bodyAt? last = some body ∧ member ∈ body.members ∧
        Settles document start.name (start.pointer :: more) last member part ∧ has part := by
  have hflattens := flattens_walk hread hstart
  have hbody := Document.bodyAt?_pointer hread hkeys hstart
  constructor
  · intro hhas
    exact hflattens.exists_visit hadd hbody (fun _ hm => hm) (accepts_pointer hread hkeys hstart)
      (List.nodup_singleton _) hhas
  · rintro ⟨more, last, body, member, part, hvisit, hlast, hmem, hsettles, hhas⟩
    exact Flattens.has_of_visit hread hadd hlast hmem hhas hbody hflattens hvisit hsettles

/-- **The properties of a walk, by the visited bodies.** -/
theorem mem_properties_resolve_iff (resolved : ResolvedProperty) :
    resolved ∈ (resolve document start).properties ↔
      ∃ more last body schema, Visit document [start.pointer] start.pointer more last ∧
        document.bodyAt? last = some body ∧ .inline schema ∈ body.members ∧
        resolved ∈ declared last schema := by
  rw [show resolved ∈ (resolve document start).properties ↔ _ from
    has_resolve_iff hkeys hread hstart (Flattened.additive_mem_properties resolved)]
  constructor
  · rintro ⟨more, last, body, member, part, hvisit, hbody, hmem, hsettles, hhas⟩
    cases hsettles with
    | inline => exact ⟨more, last, body, _, hvisit, hbody, hmem, hhas⟩
    | malformed => exact absurd hhas List.not_mem_nil
    | cycle => exact absurd hhas List.not_mem_nil
    | refused => exact absurd hhas List.not_mem_nil
  · rintro ⟨more, last, body, schema, hvisit, hbody, hmem, hhas⟩
    exact ⟨more, last, body, _, _, hvisit, hbody, hmem, .inline, hhas⟩

/-- **The diagnostics of a walk, by the visited bodies.** -/
theorem mem_diagnostics_resolve_iff (diagnostic : Diagnostic) :
    diagnostic ∈ (resolve document start).diagnostics ↔
      ∃ more last body member part, Visit document [start.pointer] start.pointer more last ∧
        document.bodyAt? last = some body ∧ member ∈ body.members ∧
        Settles document start.name (start.pointer :: more) last member part ∧
        diagnostic ∈ part.diagnostics :=
  has_resolve_iff hkeys hread hstart (Flattened.additive_mem_diagnostics diagnostic)

/-- What is reported of a walk are failed references and cycles. -/
theorem exists_of_mem_diagnostics {diagnostic : Diagnostic}
    (h : diagnostic ∈ (resolve document start).diagnostics) :
    (∃ pointer failure, diagnostic = .reference start.name pointer failure) ∨
      ∃ cycle, diagnostic = .cyclicReference start.name cycle := by
  obtain ⟨_, _, _, _, _, _, _, _, hsettles, hmem⟩ :=
    (mem_diagnostics_resolve_iff hkeys hread hstart diagnostic).mp h
  cases hsettles with
  | inline => exact absurd hmem List.not_mem_nil
  | malformed => exact Or.inl ⟨_, _, List.mem_singleton.mp hmem⟩
  | cycle => exact Or.inr ⟨_, List.mem_singleton.mp hmem⟩
  | refused => exact Or.inl ⟨_, _, List.mem_singleton.mp hmem⟩

end Resolve

end Resolution

/-! ## Nothing is missed -/

/-- **A member of the body at `place` that contributes nothing, however the body was reached**, with
the pointer and the failure that are reported for it. -/
inductive Fails (document : Document) (place : String) :
    Member → String → ReferenceFailure → Prop where
  | malformed {fault : MemberFault} :
      Fails document place (.malformed fault) ("#" ++ place) (.malformed fault)
  | notFound {reference : String} (hnone : document.lookup? reference = none) :
      Fails document place (.reference reference) reference .notFound
  | notComposable {reference : String} {part : Json}
      (hpart : document.lookup? reference = some part)
      (hnot : ¬ document.Accepts (Pointer.canonical reference)) :
      Fails document place (.reference reference) reference (.notComposable part.kind)

theorem Refused.fails {document : Document} {reference : String} {failure : ReferenceFailure}
    (h : Refused document reference failure) (place : String) :
    Fails document place (.reference reference) reference failure := by
  have hnot := exists_refused_iff.mp ⟨failure, h⟩
  cases h with
  | notFound hnone => exact .notFound hnone
  | notComposable hpart => exact .notComposable hpart hnot

/-- A failing member is settled on every path of accepted pointers. -/
theorem Fails.settles {document : Document} {definition place pointer : String}
    {path : List String} {member : Member} {failure : ReferenceFailure}
    (h : Fails document place member pointer failure)
    (hpath : ∀ vertex ∈ path, document.Accepts vertex) :
    Settles document definition path place member
      (.problem (.reference definition pointer failure)) := by
  cases h with
  | malformed => exact .malformed
  | notFound hnone =>
      have hrefused : Refused document pointer .notFound := .notFound hnone
      have hnot := exists_refused_iff.mp ⟨_, hrefused⟩
      exact .refused (fun hon => hnot (hpath _ hon)) hrefused
  | notComposable hpart hnot =>
      obtain ⟨failure, hrefused⟩ := exists_refused_iff.mpr hnot
      have hoff : Pointer.canonical pointer ∉ path := fun hon => hnot (hpath _ hon)
      cases hrefused with
      | notFound hnone => rw [hpart] at hnone; cases hnone
      | notComposable hpart' hdefinition hcomposable =>
          rw [hpart] at hpart'
          cases hpart'
          exact .refused hoff (.notComposable hpart hdefinition hcomposable)

namespace Resolution

/-- **A walk misses nothing that can be reached.** Its properties are those of all sets given in
place in the bodies that can be reached from its definition, and its reference failures are those of
all members of these bodies that contribute nothing, though cycles are cut and failures skipped on
the way. -/
theorem resolve_iff_reachable {value : Json} {document : Document} {start : Definition}
    (hkeys : value.UniqueKeys) (hread : Document.ofJson value = .ok document)
    (hstart : start ∈ document.definitions) :
    (∀ resolved, resolved ∈ (resolve document start).properties ↔
      ∃ place body schema, document.Reachable start.pointer place ∧
        document.bodyAt? place = some body ∧ .inline schema ∈ body.members ∧
        resolved ∈ declared place schema) ∧
    (∀ pointer failure,
      (∃ name, .reference name pointer failure ∈ (resolve document start).diagnostics) ↔
      ∃ place body member, document.Reachable start.pointer place ∧
        document.bodyAt? place = some body ∧ member ∈ body.members ∧
        Fails document place member pointer failure) := by
  constructor
  · intro resolved
    rw [mem_properties_resolve_iff hkeys hread hstart]
    constructor
    · rintro ⟨more, place, body, schema, hvisit, hrest⟩
      exact ⟨place, body, schema, reachable_iff_exists_visit.mpr ⟨more, hvisit⟩, hrest⟩
    · rintro ⟨place, body, schema, hreach, hrest⟩
      obtain ⟨more, hvisit⟩ := reachable_iff_exists_visit.mp hreach
      exact ⟨more, place, body, schema, hvisit, hrest⟩
  · intro pointer failure
    simp only [mem_diagnostics_resolve_iff hkeys hread hstart]
    constructor
    · rintro ⟨name, more, place, body, member, part, hvisit, hbody, hmem, hsettles, hhas⟩
      refine ⟨place, body, member, reachable_iff_exists_visit.mpr ⟨more, hvisit⟩, hbody, hmem, ?_⟩
      cases hsettles with
      | inline => exact absurd hhas List.not_mem_nil
      | malformed =>
          cases List.mem_singleton.mp hhas
          exact .malformed
      | cycle => cases List.mem_singleton.mp hhas
      | refused _ hrefused =>
          cases List.mem_singleton.mp hhas
          exact hrefused.fails place
    · rintro ⟨place, body, member, hreach, hbody, hmem, hfails⟩
      obtain ⟨more, hvisit⟩ := reachable_iff_exists_visit.mp hreach
      refine ⟨start.name, more, place, body, member, _, hvisit, hbody, hmem, hfails.settles ?_,
        List.mem_cons_self⟩
      intro vertex hvertex
      exact (hvisit.reachable_of_mem hvertex).accepts (accepts_pointer hread hkeys hstart)

theorem uniqueKeys_mutualFields : (Json.object mutualFields).UniqueKeys := by
  simp [mutualFields, Json.UniqueKeys, Json.UniqueKeysFields, Json.UniqueKeysItems]

/-- The property of `B` that the walk of `A` finds stands in a body that can be reached from `A`,
and so does the reference to the missing `C`. -/
theorem reachable_mutualStart :
    (Json.object mutualFields).UniqueKeys ∧
      Document.ofJson (.object mutualFields) = .ok mutualDocument ∧
      mutualStart ∈ mutualDocument.definitions ∧
      (∃ place body schema, mutualDocument.Reachable "/A" place ∧
        mutualDocument.bodyAt? place = some body ∧ .inline schema ∈ body.members ∧
        ⟨⟨"y", .object [], none⟩, false, "B", "/B/allof/1"⟩ ∈ declared place schema) ∧
      (∃ place body member, mutualDocument.Reachable "/A" place ∧
        mutualDocument.bodyAt? place = some body ∧ member ∈ body.members ∧
        Fails mutualDocument place member "#/C" .notFound) := by
  obtain ⟨hproperties, hfailures⟩ :=
    resolve_iff_reachable uniqueKeys_mutualFields ofJson_mutualFields mutualStart_mem
  refine ⟨uniqueKeys_mutualFields, ofJson_mutualFields, mutualStart_mem,
    (hproperties _).mp ?_, (hfailures _ _).mp ⟨"A", ?_⟩⟩
  · show _ ∈ (resolve mutualDocument mutualStart).properties
    decide +kernel
  · show _ ∈ (resolve mutualDocument mutualStart).diagnostics
    decide +kernel

end Resolution

end SchemaHeader

import SchemaHeader.Resolution.Step

set_option autoImplicit false

/-! # Why a walk ends

The same body may be entered many times, so no single counter goes down. But the bodies on the
stack have different pointers, and every pointer but the outermost one comes from a `$ref` of
the document, of which there are finitely many: this bounds the depth. With the depth bounded,
the stack read as a number, **an outer frame counting more than all that it can open**, goes
down with every step.

* `Supply` is the stock of pointers and the number of members a body can have.
* `Admissible` is what every stack of a walk satisfies; `admissible_step` says that it is kept.
* `weight_step_lt` says that the weight of an admissible stack goes down.
-/

namespace SchemaHeader.Resolution

/-! ## The supply of a walk -/

/-- The pointers that references can bring up, and the greatest number of members of a body. -/
structure Supply where
  pointers : List String
  breadth : Nat

/-- The references among the members of a body. -/
def references (body : Composition) : List String :=
  body.members.filterMap fun
    | .reference pointer => some pointer
    | _ => none

/-- The supply of a walk that starts with a body in a document. -/
def Supply.of (document : Document) (body : Composition) : Supply where
  pointers := (references body ++ document.root.references).map Pointer.canonical
  breadth := max body.members.length (2 * document.root.longestArray + 2)

/-- A supply that holds all that the document itself can bring up. -/
structure Supply.Covers (supply : Supply) (document : Document) : Prop where
  pointers : ∀ pointer ∈ document.root.references, Pointer.canonical pointer ∈ supply.pointers
  breadth : 2 * document.root.longestArray + 2 ≤ supply.breadth

theorem Supply.covers_of (document : Document) (body : Composition) :
    (Supply.of document body).Covers document where
  pointers := fun pointer h => by
    simp only [Supply.of, List.mem_map, List.mem_append]
    exact ⟨pointer, Or.inr h, rfl⟩
  breadth := Nat.le_max_right _ _

/-! ## Admissible frames and stacks -/

/-- A frame whose pending members stay within the supply. -/
structure Frame.Within (frame : Frame) (supply : Supply) : Prop where
  references : ∀ pointer, .reference pointer ∈ frame.pending →
    Pointer.canonical pointer ∈ supply.pointers
  breadth : frame.pending.length ≤ supply.breadth

/-- A stack of a walk: its frames stay within the supply, their pointers are pairwise different,
and all but the outermost one come from the supply. -/
structure Admissible (supply : Supply) (stack : Stack) : Prop where
  within : ∀ frame ∈ stack, frame.Within supply
  distinct : stack.path.Nodup
  inner : ∀ pointer ∈ stack.path.dropLast, pointer ∈ supply.pointers

/-- A frame that has visited one more member stays within the supply. -/
theorem Frame.Within.tail {supply : Supply} {frame : Frame} {member : Member}
    {pending : List Member} (h : frame.Within supply) (hp : frame.pending = member :: pending) :
    Frame.Within { frame with pending } supply where
  references := fun pointer hm =>
    h.references pointer (by rw [hp]; exact List.mem_cons_of_mem _ hm)
  breadth := by
    have := h.breadth
    rw [hp, List.length_cons] at this
    show pending.length ≤ supply.breadth
    omega

/-- The first frame of a walk is admissible. -/
theorem admissible_start (document : Document) (pointer : String) (body : Composition) :
    Admissible (Supply.of document body) [⟨pointer, body.members⟩] where
  within := fun frame h => by
    rw [List.mem_singleton] at h
    subst h
    refine ⟨fun reference hr => ?_, Nat.le_max_left _ _⟩
    simp only [Supply.of, List.mem_map, List.mem_append]
    exact ⟨reference, Or.inl (List.mem_filterMap.2 ⟨.reference reference, hr, rfl⟩), rfl⟩
  distinct := by simp [Stack.path]
  inner := by simp [Stack.path]

/-- **The depth of a walk is bounded by the number of pointers of the supply.** -/
theorem Admissible.length_le {supply : Supply} {stack : Stack} (h : Admissible supply stack) :
    stack.length ≤ supply.pointers.length + 1 := by
  have hle : stack.path.dropLast.length ≤ supply.pointers.length :=
    (h.distinct.sublist (List.dropLast_sublist _)).length_le_of_subset h.inner
  simp only [Stack.path, List.length_dropLast, List.length_map] at hle
  omega

/-- Leaving a frame keeps a stack admissible. -/
theorem Admissible.pop {supply : Supply} {frame : Frame} {outer : Stack}
    (h : Admissible supply (frame :: outer)) : Admissible supply outer where
  within := fun f hf => h.within f (List.mem_cons_of_mem _ hf)
  distinct := (List.nodup_cons.1 h.distinct).2
  inner := fun pointer hp => by
    refine h.inner pointer ?_
    cases outer with
    | nil => simp [Stack.path] at hp
    | cons next rest => exact List.mem_cons_of_mem _ hp

/-- Visiting a member of the innermost frame keeps a stack admissible. -/
theorem Admissible.visit {supply : Supply} {frame : Frame} {outer : Stack} {member : Member}
    {pending : List Member} (h : Admissible supply (frame :: outer))
    (hp : frame.pending = member :: pending) :
    Admissible supply ({ frame with pending } :: outer) where
  within := fun f hf => by
    rcases List.mem_cons.1 hf with rfl | hf
    · exact (h.within frame List.mem_cons_self).tail hp
    · exact h.within f (List.mem_cons_of_mem _ hf)
  distinct := h.distinct
  inner := h.inner

/-- Entering a body whose pointer is not on the stack keeps the stack admissible. -/
theorem Admissible.push {supply : Supply} {stack : Stack} {frame : Frame}
    (h : Admissible supply stack) (hne : stack ≠ []) (hf : frame.Within supply)
    (hp : frame.pointer ∈ supply.pointers) (hnew : frame.pointer ∉ stack.path) :
    Admissible supply (frame :: stack) where
  within := fun f hm => by
    rcases List.mem_cons.1 hm with rfl | hm
    · exact hf
    · exact h.within f hm
  distinct := List.nodup_cons.2 ⟨hnew, h.distinct⟩
  inner := fun pointer hm => by
    have hpath : Stack.path (frame :: stack) = frame.pointer :: stack.path := rfl
    have hne' : stack.path ≠ [] := by simpa [Stack.path] using hne
    rw [hpath, List.dropLast_cons_of_ne_nil hne'] at hm
    rcases List.mem_cons.1 hm with rfl | hm
    · exact hp
    · exact h.inner pointer hm

/-! ## References stay within the supply -/

/-- What a reference stands for was read from a part of the document. -/
theorem target_ok {document : Document} {pointer : String} {body : Composition}
    (h : target document pointer = .ok body) :
    ∃ path part, document.root.descend? path = some part ∧
      Composition.ofJson? part = some body := by
  unfold target at h
  split at h
  · cases h
  · rename_i value hv
    split at h
    · split at h
      · rename_i body' hb
        cases h
        rw [Document.lookup?, Json.resolve?, Option.bind_eq_some_iff] at hv
        obtain ⟨path, _, hd⟩ := hv
        exact ⟨path, value, hd, hb⟩
      · cases h
    · cases h

/-- The body that a reference stands for stays within the supply. -/
theorem within_of_target {supply : Supply} {document : Document} {pointer reference : String}
    {body : Composition} (hc : supply.Covers document)
    (h : target document reference = .ok body) :
    Frame.Within ⟨pointer, body.members⟩ supply := by
  obtain ⟨path, part, hd, hb⟩ := target_ok h
  refine ⟨fun r hr => hc.pointers r ?_, ?_⟩
  · exact Json.references_of_descend? hd r (Composition.reference_mem_references hb hr)
  · have h₁ := Composition.length_members_le hb
    have h₂ := Json.longestArray_of_descend? hd
    have h₃ := hc.breadth
    show body.members.length ≤ supply.breadth
    omega

/-- A reference that can be followed leads to a body that is not on the path. -/
theorem follow_ok {document : Document} {definition reference : String} {path : List String}
    {frame : Frame} (h : follow document definition path reference = .ok frame) :
    frame.pointer = Pointer.canonical reference ∧ frame.pointer ∉ path ∧
      ∃ body, target document reference = .ok body ∧ frame = ⟨frame.pointer, body.members⟩ := by
  unfold follow at h
  simp only at h
  split at h
  · cases h
  · rename_i hnew
    split at h
    · rename_i body hb
      cases h
      exact ⟨rfl, hnew, body, hb, rfl⟩
    · cases h

/-! ## Steps -/

/-- **Every step keeps a stack admissible.** -/
theorem admissible_step {supply : Supply} {document : Document} {definition : String}
    {frame : Frame} {outer : Stack} (hc : supply.Covers document)
    (h : Admissible supply (frame :: outer)) :
    Admissible supply (step document definition frame outer).1 := by
  unfold step
  split
  · exact h.pop
  · rename_i member pending hp
    have hv := h.visit hp
    cases member with
    | inline schema => exact hv
    | malformed fault => exact hv
    | reference reference =>
      simp only
      split
      · rename_i inner hi
        obtain ⟨hptr, hnew, body, hb, heq⟩ := follow_ok hi
        refine hv.push (by simp) ?_ ?_ hnew
        · rw [heq]
          exact within_of_target hc hb
        · rw [hptr]
          exact (h.within frame List.mem_cons_self).references reference
            (by rw [hp]; exact List.mem_cons_self)
      · exact hv

/-- What a unit of work counts for with `room` more frames to open inside it: more than all the
work that they can hold. -/
def Supply.unit (supply : Supply) : (room : Nat) → Nat
  | 0 => 1
  | room + 1 => (supply.breadth + 2) * supply.unit room

theorem Supply.unit_pos (supply : Supply) (room : Nat) : 0 < supply.unit room := by
  induction room with
  | zero => exact Nat.one_pos
  | succ room ih => exact Nat.mul_pos (by omega) ih

/-- A stack as a number: a frame counts for its pending members and itself, and more the further
out it is. -/
def weight (supply : Supply) : Stack → Nat
  | [] => 0
  | frame :: outer =>
    (frame.pending.length + 1) * supply.unit (supply.pointers.length - outer.length)
      + weight supply outer

/-- Visiting a member lowers the weight. -/
theorem weight_visit_lt {supply : Supply} {frame : Frame} {outer : Stack} {member : Member}
    {pending : List Member} (hp : frame.pending = member :: pending) :
    weight supply ({ frame with pending } :: outer) < weight supply (frame :: outer) := by
  have hpos := supply.unit_pos (supply.pointers.length - outer.length)
  simp only [weight, hp, List.length_cons]
  rw [Nat.add_mul (pending.length + 1) 1]
  omega

/-- Leaving a frame lowers the weight. -/
theorem weight_pop_lt (supply : Supply) (frame : Frame) (outer : Stack) :
    weight supply outer < weight supply (frame :: outer) := by
  have hpos := supply.unit_pos (supply.pointers.length - outer.length)
  have : 0 < (frame.pending.length + 1)
      * supply.unit (supply.pointers.length - outer.length) := Nat.mul_pos (by omega) hpos
  simp only [weight]
  omega

/-- Entering a body costs less than the visit that leads to it. -/
theorem weight_push_lt {supply : Supply} {frame inner : Frame} {outer : Stack} {member : Member}
    {pending : List Member} (hp : frame.pending = member :: pending)
    (hi : inner.pending.length ≤ supply.breadth)
    (hd : outer.length < supply.pointers.length) :
    weight supply (inner :: { frame with pending } :: outer) < weight supply (frame :: outer) := by
  -- One visit of the outer frame is worth `breadth + 2` units of the inner one.
  have hsucc : supply.pointers.length - outer.length
      = (supply.pointers.length - (outer.length + 1)) + 1 := by omega
  simp only [weight, hp, List.length_cons]
  rw [hsucc]
  generalize supply.pointers.length - (outer.length + 1) = room
  have hpos := supply.unit_pos room
  have hle : (inner.pending.length + 1) * supply.unit room
      ≤ (supply.breadth + 1) * supply.unit room := Nat.mul_le_mul_right _ (by omega)
  have hunit : supply.unit (room + 1) = (supply.breadth + 1) * supply.unit room
      + supply.unit room := by
    show (supply.breadth + 2) * supply.unit room = _
    rw [← Nat.succ_mul]
  rw [Nat.add_mul (pending.length + 1) 1, Nat.one_mul]
  omega

/-- **Every step lowers the weight of an admissible stack.** -/
theorem weight_step_lt {supply : Supply} {document : Document} {definition : String}
    {frame : Frame} {outer : Stack} (hc : supply.Covers document)
    (h : Admissible supply (frame :: outer)) :
    weight supply (step document definition frame outer).1 < weight supply (frame :: outer) := by
  have hkeep : Admissible supply (step document definition frame outer).1 :=
    admissible_step hc h
  unfold step at hkeep ⊢
  split
  · exact weight_pop_lt supply frame outer
  · rename_i member pending hp
    rw [hp] at hkeep
    cases member with
    | inline schema => exact weight_visit_lt hp
    | malformed fault => exact weight_visit_lt hp
    | reference reference =>
      simp only at hkeep ⊢
      split
      · rename_i inner hi
        rw [hi] at hkeep
        have hlen := hkeep.length_le
        simp only [List.length_cons] at hlen
        refine weight_push_lt hp ?_ (by omega)
        exact (hkeep.within inner List.mem_cons_self).breadth
      · exact weight_visit_lt hp

end SchemaHeader.Resolution

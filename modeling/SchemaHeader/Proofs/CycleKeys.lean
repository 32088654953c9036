import SchemaHeader.Proofs.CycleReports

set_option autoImplicit false

/-! # Keys of cycles

A cycle is reported as a closed path, and the path depends on where the walk has entered the cycle.
The key of the path does not: it is the one rotation that starts at the least pointer. It does
depend on the direction, since **a cycle of three or more pointers is no rotation of its own
reverse** (`isRotated_reverse_self_iff`): the pointer behind the first one would be the one before
it.

* `eq_cycleKey_iff`: the key is the only rotation that starts at the least pointer.
* `isRotated_dropLast_reverse`: a closed path walked backwards, without its end, is the open part
  walked backwards from another entry.
* `cycleKey_canonical`: **two paths have the same key exactly if they go round the same cycle in the
  same direction.**
-/

namespace SchemaHeader

open List

/-! ## Directions -/

/-- Without repetitions, a list of three or more is no rotation of its reverse. -/
theorem isRotated_reverse_self_iff {α : Type} [DecidableEq α] {l : List α} (h : l.Nodup) :
    l ~r l.reverse ↔ l.length ≤ 2 := by
  match l, h with
  | [], _ => simp
  | [a], _ => simp
  | [a, b], _ => exact iff_of_true ⟨1, rfl⟩ (le_refl 2)
  | a :: b :: c :: rest, h =>
      refine iff_of_false (fun hrotated => ?_) (by simp)
      have hmem : a ∈ a :: b :: c :: rest := mem_cons_self
      -- What follows on `a` is `b` one way round, and the last element the other way round.
      have hlast : b = (c :: rest).getLast (cons_ne_nil c rest) := by
        calc b = (a :: b :: c :: rest).next a hmem := (next_cons_cons_eq _ _ _ _).symm
          _ = (a :: b :: c :: rest).reverse.next a (mem_reverse.mpr hmem) :=
              isRotated_next_eq hrotated h hmem
          _ = (a :: b :: c :: rest).prev a hmem := next_reverse_eq_prev _ h a hmem
          _ = (c :: rest).getLast (cons_ne_nil c rest) := by
              rw [prev_cons_cons_eq]
              rfl
      have hb : b ∉ c :: rest := (nodup_cons.mp (nodup_cons.mp h).2).1
      exact hb (hlast ▸ getLast_mem _)

/-- **A closed path** ends where it starts, and meets no pointer twice before its end. -/
structure ClosedPath (path : List String) : Prop where
  closes : path.head? = path.getLast?
  nodup : path.dropLast.Nodup

/-- **A closed path walked backwards** goes round the same pointers the other way. -/
theorem isRotated_dropLast_reverse {path : List String} (h : path.head? = path.getLast?) :
    path.reverse.dropLast ~r path.dropLast.reverse := by
  cases path with
  | nil => exact IsRotated.refl _
  | cons first rest =>
      rcases eq_nil_or_concat' rest with rfl | ⟨inner, last, rfl⟩
      · exact IsRotated.refl _
      · rw [head?_cons, ← cons_append, getLast?_concat, Option.some_inj] at h
        subst h
        have hbackward : (first :: (inner ++ [first])).reverse.dropLast
            = [first] ++ inner.reverse := by
          rw [reverse_cons, reverse_append, reverse_singleton, dropLast_concat]
        have hforward : (first :: (inner ++ [first])).dropLast.reverse
            = inner.reverse ++ [first] := by
          rw [← cons_append, dropLast_concat, reverse_cons]
        rw [hbackward, hforward]
        exact isRotated_append

/-! ## Keys -/

/-- **The key of a path is the only rotation of its open part that starts at the least pointer.** -/
theorem eq_cycleKey_iff {path key : List String} (hnodup : path.dropLast.Nodup) :
    key = cycleKey path ↔
      key ~r path.dropLast ∧ ∀ first ∈ key.head?, ∀ pointer ∈ path.dropLast, first ≤ pointer := by
  constructor
  · rintro rfl
    refine ⟨cycleKey_isRotated path, fun first hfirst => ?_⟩
    rw [head?_cycleKey] at hfirst
    exact (least?_eq_some hfirst).2
  · rintro ⟨hrotated, hleast⟩
    have hboth : key ~r cycleKey path := hrotated.trans (cycleKey_isRotated path).symm
    refine eq_of_isRotated_of_head? hboth (hrotated.nodup_iff.mpr hnodup) ?_
    rw [head?_cycleKey]
    cases hhead : key.head? with
    | none =>
        have hnil : key = [] := head?_eq_none_iff.mp hhead
        rw [hnil, isRotated_nil_iff'] at hrotated
        rw [← hrotated]
        rfl
    | some first =>
        have hmem : first ∈ path.dropLast := hrotated.mem_iff.mp (mem_of_mem_head? hhead)
        cases hother : least? path.dropLast with
        | none =>
            rw [least?_eq_none.mp hother] at hmem
            exact absurd hmem not_mem_nil
        | some least =>
            obtain ⟨hin, hle⟩ := least?_eq_some hother
            -- Both are members, and each is at most as large as all members.
            rw [String.le_antisymm (hleast first hhead least hin) (hle first hmem)]

/-- **The key of a cycle is canonical.** Of two paths of which one is closed, both have the same key
exactly if, without their ends, the second one is a rotation of the first one. The key is a rotation
itself, the only one that starts at the least pointer. Walked backwards, a closed path keeps its key
only if it has no more than two pointers. -/
theorem cycleKey_canonical {path : List String} (h : ClosedPath path) :
    (∀ other, cycleKey path = cycleKey other ↔ path.dropLast ~r other.dropLast) ∧
    (∀ key, key = cycleKey path ↔
      key ~r path.dropLast ∧ ∀ first ∈ key.head?, ∀ pointer ∈ path.dropLast, first ≤ pointer) ∧
    (cycleKey path = cycleKey path.reverse ↔ path.dropLast.length ≤ 2) := by
  refine ⟨fun other => cycleKey_eq_iff h.nodup, fun key => eq_cycleKey_iff h.nodup, ?_⟩
  have hreverse := isRotated_dropLast_reverse h.closes
  rw [cycleKey_eq_iff h.nodup, ← isRotated_reverse_self_iff h.nodup]
  constructor
  · intro hrotated
    exact hrotated.trans hreverse
  · intro hrotated
    exact hrotated.trans hreverse.symm

/-- Three bodies in a ring have one key, wherever the ring is entered, and another one backwards. -/
theorem cycleKey_canonical_ring :
    ClosedPath ["#/B", "#/C", "#/A", "#/B"] ∧
      cycleKey ["#/B", "#/C", "#/A", "#/B"] = ["#/A", "#/B", "#/C"] ∧
      cycleKey ["#/B", "#/C", "#/A", "#/B"] = cycleKey ["#/C", "#/A", "#/B", "#/C"] ∧
      cycleKey ["#/B", "#/C", "#/A", "#/B"] ≠ cycleKey ["#/B", "#/A", "#/C", "#/B"] := by
  have hclosed : ClosedPath ["#/B", "#/C", "#/A", "#/B"] := ⟨rfl, by decide⟩
  obtain ⟨hentry, hkey, hreverse⟩ := cycleKey_canonical hclosed
  refine ⟨hclosed, ((hkey _).mpr ⟨⟨1, rfl⟩, ?_⟩).symm, (hentry _).mpr ⟨1, rfl⟩, ?_⟩
  · decide +kernel
  · intro heq
    exact absurd (hreverse.mp heq) (by decide)

end SchemaHeader

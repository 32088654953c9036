import SchemaHeader.Proofs.ReferenceGraph
import SchemaHeader.Proofs.RunReport
import Mathlib.Data.List.Cycle

set_option autoImplicit false

/-! # Reported cycles

A run reports every elementary cycle of the reference graph that some definition leads to, and it
reports it once. Three arguments meet here:

* **The key of a cycle is canonical** (`cycleKey_eq_iff`): among cycles that meet no vertex twice,
  two have the same key exactly if one is a rotation of the other.
* **What a walk reports is a cycle** (`exists_elementaryCycle`): the part of the path from the
  vertex that is met again, closed by the last reference.
* **Every cycle is closed by some walk** (`exists_closed_mem_found`): one that enters it along a
  simple path and then follows it all the way round.
-/

namespace SchemaHeader

/-! ## Keys -/

theorem least?_eq_none {texts : List String} : least? texts = none ↔ texts = [] := by
  cases texts with
  | nil => simp [least?]
  | cons text rest =>
      simp only [least?]
      split
      · simp
      · simp

/-- The least of some texts is one of them, and none of them is less. -/
theorem least?_eq_some {texts : List String} {first : String} (h : least? texts = some first) :
    first ∈ texts ∧ ∀ text ∈ texts, first ≤ text := by
  induction texts generalizing first with
  | nil => cases h
  | cons text rest ih =>
      simp only [least?] at h
      split at h
      · rename_i hnone
        cases h
        rw [least?_eq_none.mp hnone]
        refine ⟨List.mem_cons_self, fun other hother => ?_⟩
        cases List.mem_singleton.mp hother
        exact String.le_refl _
      · rename_i other hother
        obtain ⟨hmem, hle⟩ := ih hother
        cases h
        by_cases hlt : other < text
        · rw [if_pos hlt]
          refine ⟨List.mem_cons_of_mem _ hmem, fun x hx => ?_⟩
          rcases List.mem_cons.mp hx with rfl | hx
          · exact String.not_lt.mp (String.lt_asymm hlt)
          · exact hle x hx
        · rw [if_neg hlt]
          refine ⟨List.mem_cons_self, fun x hx => ?_⟩
          rcases List.mem_cons.mp hx with rfl | hx
          · exact String.le_refl _
          · exact String.le_trans (String.not_lt.mp hlt) (hle x hx)

/-- The least of some texts does not depend on their order. -/
theorem least?_eq_of_perm {texts others : List String} (h : texts.Perm others) :
    least? texts = least? others := by
  cases hfirst : least? texts with
  | none =>
      rw [least?_eq_none.mp hfirst] at h
      rw [List.nil_perm.mp h]
      rfl
  | some first =>
      cases hsecond : least? others with
      | none =>
          rw [least?_eq_none.mp hsecond] at h
          rw [List.perm_nil.mp h] at hfirst
          cases hfirst
      | some second =>
          obtain ⟨hmem₁, hle₁⟩ := least?_eq_some hfirst
          obtain ⟨hmem₂, hle₂⟩ := least?_eq_some hsecond
          have heq : first = second :=
            String.le_antisymm (hle₁ second (h.mem_iff.mpr hmem₂))
              (hle₂ first (h.mem_iff.mp hmem₁))
          rw [heq]

/-- The key of a cycle is its open part, cut at the least pointer and put together the other way. -/
theorem exists_cycleKey_eq {cycle : List String} {first : String}
    (h : least? cycle.dropLast = some first) :
    ∃ before after, cycle.dropLast = before ++ first :: after ∧
      cycleKey cycle = first :: after ++ before := by
  obtain ⟨before, after, hsplit, hbefore⟩ := List.eq_append_cons_of_mem (least?_eq_some h).1
  obtain ⟨hdrop, htake⟩ := span_append_cons hbefore after
  refine ⟨before, after, hsplit, ?_⟩
  rw [hsplit] at h
  rw [cycleKey, hsplit]
  simp only [h, hdrop, htake]

theorem cycleKey_eq_nil {cycle : List String} (h : least? cycle.dropLast = none) :
    cycleKey cycle = [] := by
  simp only [cycleKey, h]

section Rotation

open List

/-- The key of a cycle is a rotation of its open part. -/
theorem cycleKey_isRotated (cycle : List String) : cycleKey cycle ~r cycle.dropLast := by
  cases h : least? cycle.dropLast with
  | none => rw [cycleKey_eq_nil h, least?_eq_none.mp h]
  | some first =>
      obtain ⟨before, after, hsplit, hkey⟩ := exists_cycleKey_eq h
      rw [hkey, hsplit]
      exact isRotated_append

/-- The key of a cycle starts at its least pointer. -/
theorem head?_cycleKey (cycle : List String) :
    (cycleKey cycle).head? = least? cycle.dropLast := by
  cases h : least? cycle.dropLast with
  | none => rw [cycleKey_eq_nil h, head?_nil]
  | some first =>
      obtain ⟨before, after, _, hkey⟩ := exists_cycleKey_eq h
      rw [hkey, cons_append, head?_cons]

/-- Rotations without repetition that start alike are the same. -/
theorem eq_of_isRotated_of_head? {first second : List String} (h : first ~r second)
    (hnodup : first.Nodup) (hhead : first.head? = second.head?) : first = second := by
  obtain ⟨n, rfl⟩ := h
  by_cases hnil : first = []
  · rw [hnil, rotate_nil]
  · have hpos : 0 < first.length := length_pos_iff.mpr hnil
    have hlt : n % first.length < first.length := Nat.mod_lt n hpos
    rw [← rotate_mod, head?_rotate hlt, head?_eq_getElem?, getElem?_eq_getElem hpos,
      getElem?_eq_getElem hlt, Option.some_inj] at hhead
    have hzero : 0 = n % first.length := (hnodup.getElem_inj_iff).mp hhead
    rw [← rotate_mod, ← hzero, rotate_zero]

/-- **The key of a cycle is canonical**: two cycles that meet no pointer twice have the same key
exactly if one is a rotation of the other. -/
theorem cycleKey_eq_iff {first second : List String} (hnodup : first.dropLast.Nodup) :
    cycleKey first = cycleKey second ↔ first.dropLast ~r second.dropLast := by
  constructor
  · intro h
    exact (cycleKey_isRotated first).symm.trans (h ▸ cycleKey_isRotated second)
  · intro h
    have hrotated : cycleKey first ~r cycleKey second :=
      ((cycleKey_isRotated first).trans h).trans (cycleKey_isRotated second).symm
    refine eq_of_isRotated_of_head? hrotated ?_ ?_
    · exact (cycleKey_isRotated first).nodup_iff.mpr hnodup
    · rw [head?_cycleKey, head?_cycleKey, least?_eq_of_perm h.perm]

end Rotation

/-! ## Cycles of the graph -/

/-- **An elementary cycle of the reference graph that some definition leads to.** It is a list of
vertices up to rotation, with its direction kept. -/
structure Document.ElementaryCycle (document : Document) (cycle : Cycle String) : Prop where
  nonempty : cycle ≠ Cycle.nil
  nodup : cycle.Nodup
  chain : cycle.Chain document.RefersTo
  reached : ∃ definition ∈ document.definitions, ∃ vertex ∈ cycle,
    document.Reachable definition.pointer vertex

/-- The cycle from `vertex` over `rest` back to `vertex`, as it is reported. -/
def closed (vertex : String) (rest : List String) : List String :=
  (vertex :: (rest ++ [vertex])).map ("#" ++ ·)

theorem dropLast_closed (vertex : String) (rest : List String) :
    (closed vertex rest).dropLast = (vertex :: rest).map ("#" ++ ·) := by
  rw [closed, ← List.cons_append, List.map_append, List.map_singleton, List.dropLast_concat]

/-- A cycle is reported, up to rotation, where its key is reported. -/
theorem coe_dropLast_eq_iff {reported : List String} (hnodup : reported.dropLast.Nodup)
    (vertex : String) (rest : List String) :
    (reported.dropLast : Cycle String)
        = ((vertex :: rest : List String) : Cycle String).map ("#" ++ ·)
      ↔ cycleKey reported = cycleKey (closed vertex rest) := by
  rw [cycleKey_eq_iff hnodup, dropLast_closed, Cycle.map_coe, Cycle.coe_eq_coe]

theorem mark_injective : Function.Injective ("#" ++ · : String → String) := by
  intro first second h
  have hlist : '#' :: first.toList = '#' :: second.toList := by
    simpa using congrArg String.toList h
  exact String.toList_inj.mp (List.cons.inj hlist).2

theorem nodup_dropLast_closed {vertex : String} {rest : List String}
    (h : (vertex :: rest).Nodup) : (closed vertex rest).dropLast.Nodup := by
  rw [dropLast_closed]
  exact h.map mark_injective

/-- The path from a vertex on, closed by the vertex. -/
theorem cycleFrom_append_cons {outside : List String} {vertex : String} (h : vertex ∉ outside)
    (rest : List String) : cycleFrom (outside ++ vertex :: rest) vertex = closed vertex rest := by
  rw [cycleFrom, (span_append_cons h rest).1, List.cons_append]
  rfl

/-- A vertex of a cycle can stand first. -/
theorem exists_cycle_eq_cons {cycle : Cycle String} {vertex : String} (h : vertex ∈ cycle) :
    ∃ rest, cycle = ((vertex :: rest : List String) : Cycle String) := by
  induction cycle using Quotient.inductionOn' with
  | h vertices =>
      obtain ⟨before, after, rfl⟩ := List.append_of_mem (Cycle.mem_coe_iff.mp h)
      exact ⟨after ++ before, Cycle.coe_eq_coe.mpr List.isRotated_append⟩

namespace Resolution

section Cycles

variable {value : Json} {document : Document} {start : Definition}
  (hkeys : value.UniqueKeys) (hread : Document.ofJson value = .ok document)
  (hstart : start ∈ document.definitions)

include hkeys hread hstart

/-- **The cycles of a walk**: it has come along a simple path, and the last vertex refers back to
one of the path. -/
theorem mem_cyclesOf_resolve_iff (cycle : List String) :
    cycle ∈ cyclesOf (resolve document start).diagnostics ↔
      ∃ more last vertex, Visit document [start.pointer] start.pointer more last ∧
        document.RefersTo last vertex ∧ vertex ∈ start.pointer :: more ∧
        cycle = cycleFrom (start.pointer :: more) vertex := by
  have haccepts := accepts_pointer hread hkeys hstart
  simp only [mem_cyclesOf, mem_diagnostics_resolve_iff hkeys hread hstart]
  constructor
  · rintro ⟨name, more, last, body, member, part, hvisit, hbody, hmem, hsettles, hhas⟩
    cases hsettles with
    | inline => exact absurd hhas List.not_mem_nil
    | malformed => cases List.mem_singleton.mp hhas
    | refused => cases List.mem_singleton.mp hhas
    | @cycle reference hon =>
        cases List.mem_singleton.mp hhas
        have hlast := (hvisit.reachable_of_mem hvisit.last_mem).accepts haccepts
        have htarget := (hvisit.reachable_of_mem hon).accepts haccepts
        exact ⟨more, last, _, hvisit, ⟨hlast, htarget, body, reference, hbody, hmem, rfl⟩, hon, rfl⟩
  · rintro ⟨more, last, vertex, hvisit, hstep, hon, rfl⟩
    obtain ⟨body, reference, hbody, hmem, rfl⟩ := hstep.exists_reference
    exact ⟨start.name, more, last, body, _, _, hvisit, hbody, hmem, .cycle hon,
      List.mem_cons_self⟩

/-- **What a walk reports is an elementary cycle**, closed and with fragment marks. -/
theorem exists_elementaryCycle {cycle : List String}
    (h : cycle ∈ cyclesOf (resolve document start).diagnostics) :
    ∃ vertex rest, cycle = closed vertex rest ∧
      document.ElementaryCycle ((vertex :: rest : List String) : Cycle String) := by
  obtain ⟨more, last, vertex, hvisit, hstep, hon, rfl⟩ :=
    (mem_cyclesOf_resolve_iff hkeys hread hstart cycle).mp h
  have hreach := hvisit.reachable_of_mem hon
  obtain ⟨outside, rest, hsplit, houtside⟩ := List.eq_append_cons_of_mem hon
  have hchain : List.IsChain document.RefersTo (vertex :: rest) :=
    (hsplit ▸ hvisit.chain).right_of_append
  have hnodup : (vertex :: rest).Nodup := by
    have hpath : (start.pointer :: more).Nodup := hvisit.nodup
    rw [hsplit] at hpath
    exact hpath.of_append_right
  have hlast : (vertex :: rest).getLast? = some last := by
    rw [← hvisit.last, hsplit, List.getLast?_append_cons]
  refine ⟨vertex, rest, hsplit ▸ cycleFrom_append_cons houtside rest, ?_, ?_, ?_, ?_⟩
  · simp
  · exact Cycle.nodup_coe_iff.mpr hnodup
  · rw [Cycle.chain_coe_cons, ← List.cons_append]
    refine hchain.append (List.isChain_singleton vertex) fun source hsource target htarget => ?_
    rw [hlast, Option.mem_some_iff] at hsource
    rw [List.head?_cons, Option.mem_some_iff] at htarget
    exact hsource ▸ htarget ▸ hstep
  · exact ⟨start, hstart, vertex, Cycle.mem_coe_iff.mpr List.mem_cons_self, hreach⟩

/-- **A walk that enters a cycle reports it**, from the vertex at which it enters. -/
theorem closed_mem_cyclesOf {front rest : List String} {vertex : String}
    (hpath : EntryPath document.RefersTo (· ∈ vertex :: rest) start.pointer front vertex)
    (hnodup : (vertex :: rest).Nodup)
    (hchain : List.IsChain document.RefersTo (vertex :: (rest ++ [vertex]))) :
    closed vertex rest ∈ cyclesOf (resolve document start).diagnostics := by
  rw [← List.cons_append, List.isChain_append] at hchain
  obtain ⟨hround, _, hback⟩ := hchain
  obtain ⟨more, hmore, _⟩ := hpath.exists_visit
  have hwhole : start.pointer :: (more ++ rest) = front ++ vertex :: rest := by
    rw [← List.cons_append, hmore, List.append_assoc]
    rfl
  obtain ⟨last, hlast⟩ : ∃ last, (vertex :: rest).getLast? = some last :=
    ⟨_, List.getLast?_eq_some_getLast (List.cons_ne_nil vertex rest)⟩
  have hfront : vertex ∉ front := fun hmem => hpath.outside vertex hmem List.mem_cons_self
  -- The walk goes on from the entry around the cycle, up to the vertex before the entry.
  have hvisit : Visit document [start.pointer] start.pointer (more ++ rest) last := by
    refine ⟨?_, ?_, ?_⟩
    · rw [hwhole]
      have hall : List.IsChain document.RefersTo (front ++ [vertex] ++ rest) :=
        hpath.chain.append_overlap hround (List.cons_ne_nil vertex [])
      rwa [List.append_assoc] at hall
    · show (start.pointer :: (more ++ rest)).Nodup
      rw [hwhole, List.nodup_append]
      refine ⟨hpath.nodup.of_append_left, hnodup, fun first hfirst second hsecond heq => ?_⟩
      exact hpath.outside first hfirst (heq ▸ hsecond)
    · rw [hwhole, List.getLast?_append_cons, hlast]
  refine (mem_cyclesOf_resolve_iff hkeys hread hstart _).mpr
    ⟨more ++ rest, last, vertex, hvisit, ?_, ?_, ?_⟩
  · exact hback last hlast vertex rfl
  · rw [hwhole]
    exact List.mem_append_right _ List.mem_cons_self
  · rw [hwhole, cycleFrom_append_cons hfront]

end Cycles

end Resolution

/-! ## Cycles of a run -/

namespace Compilation

theorem cyclesOf_identifierDiagnostics (definition : String) (names : List String) :
    cyclesOf (identifierDiagnostics definition names) = [] := by
  rw [cyclesOf, identifierDiagnostics, List.filterMap_filterMap, List.filterMap_eq_nil_iff]
  intro name _
  cases Identifier.fault? name with
  | none => rfl
  | some fault => rfl

theorem cyclesOf_issueDiagnostics (resolution : Resolution) (resolved : ResolvedProperty) :
    cyclesOf (resolution.issueDiagnostics resolved) = [] := by
  unfold Resolution.issueDiagnostics
  cases resolved.property.enumSpec with
  | none => rfl
  | some spec =>
      rw [cyclesOf, List.filterMap_map, List.filterMap_eq_nil_iff]
      intro issue _
      rfl

/-- Only walks come upon cycles. -/
theorem mem_cyclesOf_found_iff {document : Document} {cycle : List String} :
    cycle ∈ cyclesOf (found document) ↔
      ∃ start ∈ document.definitions,
        cycle ∈ cyclesOf (Resolution.resolve document start).diagnostics := by
  simp only [found, Document.nameDiagnostics, Document.resolutions, Resolution.found,
    Resolution.enumDiagnostics, enumTypeDiagnostics, cyclesOf_append, cyclesOf_flatMap,
    cyclesOf_identifierDiagnostics, cyclesOf_issueDiagnostics]
  simp

/-- **The cycles among the diagnostics of a run are exact**: each is an elementary cycle of the
reference graph that a definition leads to, closed and with fragment marks, and each such cycle is
reported once, whatever its entry point. -/
structure CyclesExact (document : Document) (diagnostics : List Diagnostic) : Prop where
  elementary : ∀ cycle ∈ cyclesOf diagnostics, ∃ vertex rest, cycle = closed vertex rest ∧
    document.ElementaryCycle ((vertex :: rest : List String) : Cycle String)
  once : ∀ cycle : Cycle String, document.ElementaryCycle cycle →
    (cyclesOf diagnostics).countP
      (fun reported => (reported.dropLast : Cycle String) = cycle.map ("#" ++ ·)) = 1

/-- Reported cycles are exact if they are elementary, their keys are pairwise different, and no
elementary cycle is without its key. -/
theorem CyclesExact.of_keys {document : Document} {diagnostics : List Diagnostic}
    (helementary : ∀ cycle ∈ cyclesOf diagnostics, ∃ vertex rest, cycle = closed vertex rest ∧
      document.ElementaryCycle ((vertex :: rest : List String) : Cycle String))
    (hdistinct : ((cyclesOf diagnostics).map cycleKey).Nodup)
    (hall : ∀ cycle, document.ElementaryCycle cycle →
      ∃ vertex rest, cycle = ((vertex :: rest : List String) : Cycle String) ∧
        cycleKey (closed vertex rest) ∈ (cyclesOf diagnostics).map cycleKey) :
    CyclesExact document diagnostics where
  elementary := helementary
  once := by
    intro cycle hcycle
    obtain ⟨vertex, rest, rfl, hkey⟩ := hall cycle hcycle
    -- Being this cycle up to rotation is having its key.
    have hiff : ∀ reported ∈ cyclesOf diagnostics,
        (reported.dropLast : Cycle String)
            = ((vertex :: rest : List String) : Cycle String).map ("#" ++ ·)
          ↔ cycleKey reported = cycleKey (closed vertex rest) := by
      intro reported hreported
      obtain ⟨vertex', rest', rfl, helem⟩ := helementary reported hreported
      exact coe_dropLast_eq_iff (nodup_dropLast_closed (Cycle.nodup_coe_iff.mp helem.nodup))
        vertex rest
    calc (cyclesOf diagnostics).countP (fun reported => (reported.dropLast : Cycle String)
            = ((vertex :: rest : List String) : Cycle String).map ("#" ++ ·))
        = (cyclesOf diagnostics).countP
            (fun reported => cycleKey reported == cycleKey (closed vertex rest)) := by
          refine List.countP_congr fun reported hreported => ?_
          rw [decide_eq_true_iff, beq_iff_eq]
          exact hiff reported hreported
      _ = ((cyclesOf diagnostics).map cycleKey).count (cycleKey (closed vertex rest)) := by
          rw [List.count_eq_countP, List.countP_map]
          rfl
      _ = 1 := List.count_eq_one_of_mem hdistinct hkey

section Run

variable {value : Json} {document : Document}
  (hkeys : value.UniqueKeys) (hread : Document.ofJson value = .ok document)

include hkeys hread

/-- **Every elementary cycle is closed by some walk.** -/
theorem exists_closed_mem_found {cycle : Cycle String} (h : document.ElementaryCycle cycle) :
    ∃ vertex rest, cycle = ((vertex :: rest : List String) : Cycle String) ∧
      closed vertex rest ∈ cyclesOf (found document) := by
  obtain ⟨start, hstart, target, htarget, hreach⟩ := h.reached
  obtain ⟨front, vertex, hpath⟩ := exists_entryPath (· ∈ cycle) hreach htarget
  obtain ⟨rest, rfl⟩ := exists_cycle_eq_cons hpath.enters
  refine ⟨vertex, rest, rfl, mem_cyclesOf_found_iff.mpr ⟨start, hstart, ?_⟩⟩
  exact Resolution.closed_mem_cyclesOf hkeys hread hstart hpath (Cycle.nodup_coe_iff.mp h.nodup)
    ((Cycle.chain_coe_cons _ _ _).mp h.chain)

/-- The ledger of a run reports the cycles exactly. -/
theorem cyclesExact_ledger :
    CyclesExact document (Ledger.empty.enterAll (found document)).1.diagnostics.toList := by
  have hsound := Ledger.sound_empty.enterAll (found document)
  refine CyclesExact.of_keys ?_ ?_ ?_
  · intro cycle hcycle
    obtain ⟨definition, hmem⟩ := mem_cyclesOf.mp hcycle
    rcases Ledger.mem_enterAll hmem with hmem | hmem
    · exact absurd hmem List.not_mem_nil
    · obtain ⟨start, hstart, hwalk⟩ :=
        mem_cyclesOf_found_iff.mp (mem_cyclesOf.mpr ⟨definition, hmem⟩)
      exact Resolution.exists_elementaryCycle hkeys hread hstart hwalk
  · rw [hsound.keys]
    exact List.nodup_reverse.mpr hsound.distinct
  · intro cycle hcycle
    obtain ⟨vertex, rest, heq, hfound⟩ := exists_closed_mem_found hkeys hread hcycle
    refine ⟨vertex, rest, heq, ?_⟩
    rw [hsound.keys, List.mem_reverse]
    exact Ledger.key_mem_enterAll (Or.inr ⟨_, hfound, rfl⟩)

end Run

/-- **Every run that comes to its end reports the cycles of its document exactly, and so does a
survey**; a run into a sink without a capacity does come to its end. -/
theorem cycles_reported_once {value : Json} {document : Document} (hkeys : value.UniqueKeys)
    (hread : Document.ofJson value = .ok document) (layout : Layout) (sink : Sink) :
    (sink.capacity = none → (compile document layout sink).report.isSome) ∧
    (∀ report, (compile document layout sink).report = some report →
      CyclesExact document report.diagnostics) ∧
    CyclesExact document (resolveAll document).ledger.diagnostics.toList := by
  have hexact := cyclesExact_ledger hkeys hread
  refine ⟨isSome_report_compile document layout, fun report hreport => ?_, ?_⟩
  · rw [diagnostics_of_compile hreport]
    exact hexact
  · rw [ledger_resolveAll]
    exact hexact

/-- The one cycle that a survey of two bodies referring to each other reports is elementary. -/
theorem cycles_reported_mutualDocument :
    (Json.object Resolution.mutualFields).UniqueKeys ∧
      Document.ofJson (.object Resolution.mutualFields) = .ok Resolution.mutualDocument ∧
      cyclesOf (resolveAll Resolution.mutualDocument).ledger.diagnostics.toList
        = [["#/A", "#/B", "#/A"]] ∧
      ∃ vertex rest, ["#/A", "#/B", "#/A"] = closed vertex rest ∧
        Resolution.mutualDocument.ElementaryCycle
          ((vertex :: rest : List String) : Cycle String) := by
  have hsurvey := (cycles_reported_once Resolution.uniqueKeys_mutualFields
    Resolution.ofJson_mutualFields ⟨"data", [], 4⟩ (Sink.empty none)).2.2
  have hcycles : cyclesOf (resolveAll Resolution.mutualDocument).ledger.diagnostics.toList
      = [["#/A", "#/B", "#/A"]] := by decide +kernel
  refine ⟨Resolution.uniqueKeys_mutualFields, Resolution.ofJson_mutualFields, hcycles,
    hsurvey.elementary _ ?_⟩
  rw [hcycles]
  exact List.mem_cons_self

end Compilation

end SchemaHeader

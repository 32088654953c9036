import SchemaHeader.FileTree
import SchemaHeader.Proofs.PointerPaths
import Mathlib.Data.List.Infix

set_option autoImplicit false

/-! # Writing into a file tree

What the operations on a file tree do to it, and where. A path leads to one place of the tree,
`FileTree.placeOf`, by its names alone; the operations only check that the way there can be walked.

* `Path.isAbove_of_mem_ancestors_tail`: the directories that are made for a path are starts of it,
  so that **they lie on the way** to the place of the path.
* `FileTree.read_of_write`: a file that was written is read back.
* `FileTree.Grows`, `FileTree.Delivers`: what making the directories above a path and then writing
  it leaves untouched.
-/

namespace SchemaHeader

/-! ## Paths above a path -/

namespace Text

/-- The pieces between slashes, as the library splits lists. -/
theorem splitSlash_eq_splitOn (s : List Char) : splitSlash s = s.splitOn '/' := by
  induction s with
  | nil => simp [splitSlash]
  | cons c rest ih =>
      rw [splitSlash, List.splitOn_cons_eq_if_modifyHead, ih]
      by_cases hc : c = '/'
      · simp [hc]
      · cases hsplit : rest.splitOn '/' with
        | nil => exact absurd (ih.trans hsplit) (splitSlash_ne_nil rest)
        | cons piece pieces => simp [hc]

end Text

namespace Path

/-- The pieces of a path put together again. -/
theorem intercalate_pieces (path : String) : String.intercalate "/" (pieces path) = path := by
  apply String.toList_inj.mp
  rw [String.toList_intercalate, pieces, List.map_map]
  have hid : String.toList ∘ String.ofList = id := funext fun s => String.toList_ofList
  rw [hid, List.map_id, Text.splitSlash_eq_splitOn]
  exact List.intercalate_splitOn '/'

/-- Some of the pieces of a path, put together, have just these pieces. -/
theorem pieces_intercalate {path : String} {chosen : List String} (hne : chosen ≠ [])
    (h : ∀ piece ∈ chosen, piece ∈ pieces path) :
    pieces (String.intercalate "/" chosen) = chosen := by
  have hslash : ∀ piece ∈ chosen.map String.toList, '/' ∉ piece := by
    intro piece hpiece
    obtain ⟨text, htext, rfl⟩ := List.mem_map.mp hpiece
    obtain ⟨chars, hchars, rfl⟩ := List.mem_map.mp (h text htext)
    rw [String.toList_ofList]
    exact Text.slash_notMem_of_mem_splitSlash hchars
  have hsplit : Text.splitSlash (String.intercalate "/" chosen).toList
      = chosen.map String.toList := by
    rw [Text.splitSlash_eq_splitOn, String.toList_intercalate]
    exact List.splitOn_intercalate '/' hslash (by simpa using hne)
  have hid : String.ofList ∘ String.toList = id := funext fun s => String.ofList_toList
  rw [pieces, hsplit, List.map_map, hid, List.map_id]

theorem pieces_append_slash (path rest : String) :
    pieces (path ++ "/" ++ rest) = pieces path ++ pieces rest := by
  have hsplit : (path ++ "/" ++ rest).toList = path.toList ++ '/' :: rest.toList := by simp
  rw [pieces, hsplit, Text.splitSlash_append_slash, List.map_append]
  rfl

theorem names_append_slash (path rest : String) :
    names (path ++ "/" ++ rest) = names path ++ names rest := by
  rw [names, pieces_append_slash, List.filter_append]
  rfl

/-- Whether a path is a start of another one, with more names behind it. -/
def IsAbove (above path : String) : Prop :=
  above ≠ "" ∧ ∃ rest, path = above ++ "/" ++ rest ∧ names rest ≠ []

namespace IsAbove

variable {above path : String}

theorem isAbsolute_eq (h : IsAbove above path) : isAbsolute above = isAbsolute path := by
  obtain ⟨hne, rest, rfl, -⟩ := h
  rw [isAbsolute, isAbsolute]
  cases hchars : above.toList with
  | nil => exact absurd (String.toList_eq_nil_iff.mp hchars) hne
  | cons c chars => simp [hchars]

theorem names_isPrefix (h : IsAbove above path) : names above <+: (names path).dropLast := by
  obtain ⟨-, rest, rfl, hrest⟩ := h
  rw [names_append_slash, List.dropLast_append_of_ne_nil hrest]
  exact List.prefix_append _ _

end IsAbove

theorem splitStart_append (s : List Char) : (splitStart s).1 ++ (splitStart s).2 = s := by
  fun_cases splitStart s <;> simp_all

/-- A stem is what is left of the pieces from a piece on that leads somewhere. -/
theorem eq_append_of_mem_stems {pieces stem : List String} (h : stem ∈ stems pieces) :
    ∃ skipped piece above, pieces = skipped ++ stem ∧ stem = piece :: above ∧
      staysPut piece = false := by
  induction pieces with
  | nil => cases h
  | cons piece above ih =>
      rw [stems] at h
      by_cases hstays : staysPut piece = true
      · rw [if_pos hstays] at h
        obtain ⟨skipped, first, rest, rfl, hstem⟩ := ih h
        exact ⟨piece :: skipped, first, rest, rfl, hstem⟩
      · rw [if_neg hstays] at h
        rcases List.mem_cons.mp h with rfl | h
        · exact ⟨[], piece, above, rfl, rfl, Bool.eq_false_iff.mpr hstays⟩
        · obtain ⟨skipped, first, rest, rfl, hstem⟩ := ih h
          exact ⟨piece :: skipped, first, rest, rfl, hstem⟩

/-- All stems but the first leave out a piece that leads somewhere. -/
theorem eq_append_of_mem_tail_stems {pieces stem : List String} (h : stem ∈ (stems pieces).tail) :
    ∃ left, pieces = left ++ stem ∧ left.filter (!staysPut ·) ≠ [] := by
  induction pieces with
  | nil => cases h
  | cons piece above ih =>
      rw [stems] at h
      by_cases hstays : staysPut piece = true
      · rw [if_pos hstays] at h
        obtain ⟨left, rfl, hleft⟩ := ih h
        exact ⟨piece :: left, rfl, by simpa [hstays] using hleft⟩
      · rw [if_neg hstays] at h
        obtain ⟨skipped, -, -, rfl, -, -⟩ := eq_append_of_mem_stems h
        exact ⟨piece :: skipped, rfl, by simp [hstays]⟩

theorem names_ne_nil_of_mem_stems {rest : String} {stem : List String}
    (h : stem ∈ stems (pieces rest).reverse) : names rest ≠ [] := by
  obtain ⟨skipped, piece, above, heq, rfl, hpiece⟩ := eq_append_of_mem_stems h
  have hmem : piece ∈ pieces rest := by
    rw [← List.mem_reverse, heq]
    simp
  exact List.ne_nil_of_mem (List.mem_filter.mpr ⟨hmem, by simp [hpiece]⟩)

theorem isAbove_of_mem_tail_stems (start : String) {rest : String} {stem : List String}
    (h : stem ∈ (stems (pieces rest).reverse).tail) :
    IsAbove (start ++ String.intercalate "/" stem.reverse) (start ++ rest) := by
  obtain ⟨left, heq, hleft⟩ := eq_append_of_mem_tail_stems h
  obtain ⟨-, piece, above, -, hstem, hpiece⟩ := eq_append_of_mem_stems (List.mem_of_mem_tail h)
  have hpieces : pieces rest = stem.reverse ++ left.reverse := by
    rw [← List.reverse_append, ← heq, List.reverse_reverse]
  have hstem' : stem.reverse ≠ [] := by simp [hstem]
  have hleft' : left.reverse ≠ [] := by
    intro hnil
    rw [List.reverse_eq_nil_iff.mp hnil] at hleft
    exact hleft rfl
  have hupper : pieces (String.intercalate "/" stem.reverse) = stem.reverse :=
    pieces_intercalate hstem' fun _ hmem => hpieces ▸ List.mem_append_left _ hmem
  have hlower : pieces (String.intercalate "/" left.reverse) = left.reverse :=
    pieces_intercalate hleft' fun _ hmem => hpieces ▸ List.mem_append_right _ hmem
  refine ⟨fun hempty => ?_, String.intercalate "/" left.reverse, ?_, ?_⟩
  · -- The text of a stem is not empty, since it has a piece that leads somewhere.
    rw [(String.append_eq_empty_iff.mp hempty).2] at hupper
    have hsingle : stem = [""] := List.reverse_injective hupper.symm
    rw [hstem] at hsingle
    rw [(List.cons.inj hsingle).1] at hpiece
    cases hpiece
  · have hrest : rest = String.intercalate "/" stem.reverse ++ "/"
        ++ String.intercalate "/" left.reverse := by
      rw [← String.intercalate_append_of_ne_nil hstem' hleft', ← hpieces, intercalate_pieces]
    rw [hrest]
    simp only [String.append_assoc]
  · rw [names, hlower, List.filter_reverse]
    simpa using hleft

theorem splitStart_dot {s rest : List Char} (h : splitStart s = (['.'], rest)) :
    rest = [] ∨ ∃ more, rest = '/' :: more := by
  unfold splitStart at h
  split at h
  · cases h
  · cases h
    exact Or.inl rfl
  · cases h
    exact Or.inr ⟨_, rfl⟩
  · cases h

/-- **The directories that are made for a path are above it.** -/
theorem isAbove_of_mem_ancestors_tail {path above : String} (h : above ∈ (ancestors path).tail) :
    IsAbove above path := by
  obtain ⟨start, rest, hsplit⟩ : ∃ start rest, splitStart path.toList = (start, rest) := ⟨_, _, rfl⟩
  have hpath : path = String.ofList start ++ String.ofList rest := by
    apply String.toList_inj.mp
    rw [String.toList_append, String.toList_ofList, String.toList_ofList,
      ← splitStart_append path.toList, hsplit]
  have hpieces : (Text.splitSlash rest).map String.ofList = pieces (String.ofList rest) := by
    rw [pieces, String.toList_ofList]
  simp only [ancestors, hsplit, hpieces] at h
  cases hstems : stems (pieces (String.ofList rest)).reverse with
  | nil =>
      -- The path leads nowhere but to its start, and nothing is above that.
      rw [hstems] at h
      split at h
      · cases h
      · cases h
  | cons first others =>
      rw [hstems, List.map_cons, List.cons_append, List.tail_cons, List.mem_append] at h
      rcases h with h | h
      · obtain ⟨stem, hstem, rfl⟩ := List.mem_map.mp h
        have htail : stem ∈ (stems (pieces (String.ofList rest)).reverse).tail := by
          rw [hstems]
          exact hstem
        rw [hpath]
        exact isAbove_of_mem_tail_stems _ htail
      · -- The dot at the start of a path is above it, if the path goes on.
        have hnames : names (String.ofList rest) ≠ [] :=
          names_ne_nil_of_mem_stems (hstems ▸ List.mem_cons_self)
        split at h
        · rename_i hdot
          cases List.mem_singleton.mp h
          rcases splitStart_dot (hdot ▸ hsplit) with rfl | ⟨more, rfl⟩
          · exact absurd rfl hnames
          · have hmore : String.ofList ('/' :: more) = "" ++ "/" ++ String.ofList more := by
              apply String.toList_inj.mp
              simp
            rw [hmore, names_append_slash] at hnames
            refine ⟨by decide, String.ofList more, ?_, hnames⟩
            rw [hpath, hdot, hmore]
            rfl
        · cases h

/-! ## The last piece of a path -/

theorem names_eq_filter (path : String) :
    names path = ((pieces path).filter (· != "")).filter (· != ".") := by
  rw [names, List.filter_filter]
  congr 1
  funext piece
  simp [staysPut, bne, Bool.and_comm]

/-- A path that does not end in a slash ends in its last piece that is not empty. -/
theorem endsInDirectory_eq_false {path name : String}
    (hlast : ((pieces path).filter (· != "")).getLast? = some name) (hname : name ≠ ".")
    (hslash : endsInSlash path = false) : endsInDirectory path = false := by
  have hne : pieces path ≠ [] := by simp [pieces, Text.splitSlash_ne_nil]
  obtain ⟨front, piece, hpieces⟩ : ∃ front piece, pieces path = front ++ [piece] :=
    ⟨_, _, (List.dropLast_append_getLast hne).symm⟩
  have hpath : path = String.intercalate "/" (front ++ [piece]) := by
    rw [← hpieces, intercalate_pieces]
  -- An empty last piece means a slash at the end, or an empty path, which has no last name.
  have hpiece : piece ≠ "" := by
    rintro rfl
    by_cases hfront : front = []
    · rw [hpieces, hfront] at hlast
      cases hlast
    · rw [String.intercalate_append_of_ne_nil hfront (List.cons_ne_nil _ _)] at hpath
      rw [endsInSlash, hpath] at hslash
      simp at hslash
  have hsame : piece = name := by
    rw [hpieces, List.filter_append, List.filter_cons_of_pos (by simpa using hpiece)] at hlast
    simpa using hlast
  subst hsame
  simp [endsInDirectory, hpieces, staysPut, hpiece, hname]

end Path

/-! ## Places and walks -/

namespace Place

/-- The place of a name in a directory, or the directory above. -/
def step (place : Place) (name : String) : Place :=
  if name = ".." then place.tail else name :: place

/-- The place that names lead to, whether something stands there or not. -/
def follow (place : Place) (names : List String) : Place :=
  names.foldl step place

theorem follow_concat (place : Place) (names : List String) (name : String) :
    place.follow (names ++ [name]) = (place.follow names).step name := by
  simp [follow]

end Place

theorem bind_eq_ok_iff {ε α β : Type} {first : Except ε α} {rest : α → Except ε β} {result : β} :
    first >>= rest = .ok result ↔ ∃ value, first = .ok value ∧ rest value = .ok result := by
  cases first with
  | error error => simp [bind, Except.bind]
  | ok value => simp [bind, Except.bind]

namespace FileTree

variable {tree next : FileTree} {place last : Place} {path : String}

/-- Where a path starts. -/
def start (tree : FileTree) (path : String) : Place :=
  if Path.isAbsolute path then [] else tree.working

/-- The place of a path, whether something stands there or not. -/
def placeOf (tree : FileTree) (path : String) : Place :=
  (tree.start path).follow (Path.names path)

/-- The places on the way to a path, from where it starts to the directory of its last name. -/
def way (tree : FileTree) (path : String) : List Place :=
  (Path.names path).dropLast.inits.map (tree.start path).follow

theorem lookup_filter_ne (entries : List (Place × Entry)) (h : last ≠ place) :
    (entries.filter (·.1 != place)).lookup last = entries.lookup last := by
  induction entries with
  | nil => rfl
  | cons first rest ih =>
      obtain ⟨other, entry⟩ := first
      by_cases hother : other = place
      · subst hother
        rw [List.filter_cons_of_neg (by simp), ih, List.lookup_cons, beq_false_of_ne h]
      · rw [List.filter_cons_of_pos (by simpa using hother), List.lookup_cons, List.lookup_cons, ih]

theorem entry?_put_self (tree : FileTree) (h : place ≠ []) (entry : Entry) :
    FileTree.entry? (tree.put place entry) place = some entry := by
  simp [ entry?, put, h]

theorem entry?_put_of_ne (tree : FileTree) (h : last ≠ place) (entry : Entry) :
    FileTree.entry? (tree.put place entry) last = tree.entry? last := by
  rw [ entry?, entry?, put, List.lookup_cons, beq_false_of_ne h]
  simp only [lookup_filter_ne tree.entries h]

theorem enter_eq_ok_iff : tree.enter place = .ok () ↔ tree.entry? place = some .directory := by
  rw [enter]
  split <;> simp_all

theorem eq_step_of_child {name : String} (h : child place name = .ok last) :
    last = place.step name := by
  rw [child] at h
  rw [Place.step]
  split at h
  · rename_i hup
    rw [if_pos hup]
    exact (Except.ok.inj h).symm
  · rename_i hup
    split at h
    · cases h
    · rw [if_neg hup]
      exact (Except.ok.inj h).symm

/-- One step of a walk. -/
theorem walk_cons_eq_ok_iff {name : String} {rest : List String} :
    tree.walk place (name :: rest) = .ok last ↔
      tree.entry? place = some .directory ∧ child place name = .ok (place.step name) ∧
        tree.entry? (place.step name) ≠ none ∧ tree.walk (place.step name) rest = .ok last := by
  rw [walk, bind_eq_ok_iff]
  constructor
  · rintro ⟨_, henter, hwalk⟩
    obtain ⟨target, hchild, hwalk⟩ := bind_eq_ok_iff.mp hwalk
    cases eq_step_of_child hchild
    split at hwalk
    · cases hwalk
    · rename_i entry hentry
      exact ⟨enter_eq_ok_iff.mp henter, hchild, hentry ▸ Option.some_ne_none _, hwalk⟩
  · rintro ⟨hdirectory, hchild, hentry, hwalk⟩
    refine ⟨(), enter_eq_ok_iff.mpr hdirectory, bind_eq_ok_iff.mpr ⟨_, hchild, ?_⟩⟩
    split
    · rename_i hnone
      exact absurd hnone hentry
    · exact hwalk

/-- A walk ends where its names lead to. -/
theorem eq_follow_of_walk {names : List String} (h : tree.walk place names = .ok last) :
    last = place.follow names := by
  induction names generalizing place with
  | nil => exact (Except.ok.inj h).symm
  | cons name rest ih => exact ih (walk_cons_eq_ok_iff.mp h).2.2.2

/-- A walk can be repeated in a tree that has the same directories and something at its end. -/
theorem walk_of_directories_kept {names : List String}
    (hkept : ∀ place, tree.entry? place = some .directory → next.entry? place = some .directory)
    (hlast : next.entry? last ≠ none) (h : tree.walk place names = .ok last) :
    next.walk place names = .ok last := by
  induction names generalizing place with
  | nil => exact h
  | cons name rest ih =>
      obtain ⟨hdirectory, hchild, -, hrest⟩ := walk_cons_eq_ok_iff.mp h
      -- Only the last place need not be a directory: all others are passed through.
      have hthere : next.entry? (place.step name) ≠ none := by
        cases rest with
        | nil =>
            cases Except.ok.inj hrest
            exact hlast
        | cons following others =>
            rw [hkept _ (walk_cons_eq_ok_iff.mp hrest).1]
            exact Option.some_ne_none _
      exact walk_cons_eq_ok_iff.mpr ⟨hkept _ hdirectory, hchild, hthere, ih hrest⟩

theorem walk_concat {names : List String} {name : String} (h : tree.walk place names = .ok last)
    (hdirectory : tree.entry? last = some .directory)
    (hchild : child last name = .ok (last.step name))
    (hthere : tree.entry? (last.step name) ≠ none) :
    tree.walk place (names ++ [name]) = .ok (last.step name) := by
  induction names generalizing place with
  | nil =>
      cases Except.ok.inj h
      exact walk_cons_eq_ok_iff.mpr ⟨hdirectory, hchild, hthere, rfl⟩
  | cons first rest ih =>
      obtain ⟨hfirst, hnext, hentry, hrest⟩ := walk_cons_eq_ok_iff.mp h
      exact walk_cons_eq_ok_iff.mpr ⟨hfirst, hnext, hentry, ih hrest⟩

theorem eq_start_of_origin (h : tree.origin path = .ok place) : place = tree.start path := by
  rw [origin] at h
  split at h
  · cases h
  · split at h
    · cases h
    · split at h
      · cases h
      · exact (Except.ok.inj h).symm

/-- Where paths start and lead to depends on the working directory alone. -/
theorem start_congr (h : next.working = tree.working) (path : String) :
    next.start path = tree.start path := by
  rw [start, start, h]

theorem placeOf_congr (h : next.working = tree.working) (path : String) :
    next.placeOf path = tree.placeOf path := by
  rw [placeOf, placeOf, start_congr h]

theorem way_congr (h : next.working = tree.working) (path : String) :
    next.way path = tree.way path := by
  rw [way, way, start_congr h]

theorem origin_congr (h : next.working = tree.working) (path : String) :
    next.origin path = tree.origin path := by
  rw [origin, origin, h]

/-! ## Reading -/

/-- What it takes to read a file. -/
theorem read_eq_ok_iff {content : ByteArray} :
    tree.read path = .ok content ↔
      tree.origin path = .ok (tree.start path) ∧
        tree.walk (tree.start path) (Path.names path) = .ok (tree.placeOf path) ∧
        tree.entry? (tree.placeOf path) = some (.file content) ∧
        Path.endsInDirectory path = false := by
  constructor
  · intro h
    obtain ⟨entry, hlocate, hfile⟩ := bind_eq_ok_iff.mp h
    obtain ⟨first, horigin, hlocate⟩ := bind_eq_ok_iff.mp hlocate
    obtain ⟨last, hwalk, hlocate⟩ := bind_eq_ok_iff.mp hlocate
    cases eq_start_of_origin horigin
    have hlast : last = tree.placeOf path := eq_follow_of_walk hwalk
    subst hlast
    split at hlocate
    · cases hlocate
    · cases hlocate
      cases hfile
    · rename_i found hentry
      split at hlocate
      · cases hlocate
      · rename_i hends
        cases hlocate
        cases hfile
        exact ⟨horigin, hwalk, hentry, Bool.eq_false_iff.mpr hends⟩
  · rintro ⟨horigin, hwalk, hentry, hends⟩
    simp [read, locate, horigin, hwalk, hentry, hends, bind, Except.bind]

/-! ## Making and writing -/

/-- A path whose last name stands, or could stand, in a directory of the tree. -/
structure Reaches (tree : FileTree) (path : String) (place : Place) (name : String) : Prop where
  origin : tree.origin path = .ok (tree.start path)
  lastPiece : ((Path.pieces path).filter (· != "")).getLast? = some name
  isName : name ≠ "." ∧ name ≠ ".."
  walk : ∃ front, Path.names path = front ++ [name] ∧
    tree.walk (tree.start path) front = .ok place
  directory : tree.entry? place = some .directory

theorem Reaches.step_eq {name : String} (h : tree.Reaches path place name) :
    place.step name = tree.placeOf path := by
  obtain ⟨front, hnames, hwalk⟩ := h.walk
  rw [placeOf, hnames, Place.follow_concat, ← eq_follow_of_walk hwalk]

theorem Reaches.placeOf_ne_nil {name : String} (h : tree.Reaches path place name) :
    tree.placeOf path ≠ [] := by
  rw [← h.step_eq, Place.step, if_neg h.isName.2]
  exact List.cons_ne_nil _ _

theorem reaches_of_locateLast {name : String}
    (h : tree.locateLast path = .ok (place, some name)) : tree.Reaches path place name := by
  obtain ⟨first, horigin, h⟩ := bind_eq_ok_iff.mp h
  cases eq_start_of_origin horigin
  split at h
  · cases h
  · obtain ⟨last, hwalk, h⟩ := bind_eq_ok_iff.mp h
    obtain ⟨_, henter, h⟩ := bind_eq_ok_iff.mp h
    split at h
    · cases h
    · cases h
    · rename_i hdot hdots
      obtain ⟨rfl, hlast⟩ := Prod.mk.inj (Except.ok.inj h)
      have hname : name ≠ "." ∧ name ≠ ".." :=
        ⟨fun heq => hdot (heq ▸ hlast), fun heq => hdots (heq ▸ hlast)⟩
      refine ⟨horigin, hlast, hname, ⟨_, ?_, hwalk⟩, enter_eq_ok_iff.mp henter⟩
      -- The last piece is no dot, so it can be cut off before the dots are left out or after.
      have hsingle : [name] = [name].filter (· != ".") := by simp [hname.1]
      rw [Path.names_eq_filter, hsingle, ← List.filter_append,
        List.dropLast_append_getLast? _ hlast]

/-- What it takes to write a file: none of it depends on the content. -/
theorem write_eq_ok_iff {content : ByteArray} :
    tree.write path content = .ok next ↔
      ∃ place name, tree.locateLast path = .ok (place, some name) ∧
        Path.endsInSlash path = false ∧ child place name = .ok (tree.placeOf path) ∧
        tree.entry? (tree.placeOf path) ≠ some .directory ∧
        next = tree.put (tree.placeOf path) (.file content) := by
  constructor
  · intro h
    obtain ⟨⟨place, name?⟩, hlocate, h⟩ := bind_eq_ok_iff.mp h
    cases name? with
    | none => cases h
    | some name =>
        dsimp only at h
        split at h
        · cases h
        · rename_i hslash
          obtain ⟨target, hchild, h⟩ := bind_eq_ok_iff.mp h
          have htarget := (eq_step_of_child hchild).trans (reaches_of_locateLast hlocate).step_eq
          subst htarget
          split at h
          · cases h
          · rename_i hentry
            exact ⟨place, name, hlocate, Bool.eq_false_iff.mpr hslash, hchild, hentry,
              (Except.ok.inj h).symm⟩
  · rintro ⟨place, name, hlocate, hslash, hchild, hentry, rfl⟩
    refine bind_eq_ok_iff.mpr ⟨_, hlocate, ?_⟩
    simp only [hslash]
    refine bind_eq_ok_iff.mpr ⟨_, hchild, ?_⟩
    split
    · rename_i hdirectory
      exact absurd hdirectory hentry
    · rfl

theorem makeDirectory_eq_ok (h : tree.makeDirectory path = .ok next) :
    tree.placeOf path ≠ [] ∧ tree.entry? (tree.placeOf path) = none ∧
      next = tree.put (tree.placeOf path) .directory := by
  obtain ⟨⟨place, name?⟩, hlocate, h⟩ := bind_eq_ok_iff.mp h
  cases name? with
  | none => cases h
  | some name =>
      obtain ⟨target, hchild, h⟩ := bind_eq_ok_iff.mp h
      have hreaches := reaches_of_locateLast hlocate
      have htarget := (eq_step_of_child hchild).trans hreaches.step_eq
      subst htarget
      split at h
      · cases h
      · rename_i hnone
        exact ⟨hreaches.placeOf_ne_nil, hnone, (Except.ok.inj h).symm⟩

/-- Directories stay when a file is put in a place where there is none. -/
theorem directory_kept_put (h : tree.entry? place ≠ some .directory) (entry : Entry)
    (hlast : tree.entry? last = some .directory) :
    FileTree.entry? (tree.put place entry) last = some .directory := by
  have hne : last ≠ place := fun heq => h (heq ▸ hlast)
  rw [entry?_put_of_ne tree hne, hlast]

/-- **A file that was written is read back.** -/
theorem read_of_write {content : ByteArray} (h : tree.write path content = .ok next) :
    next.read path = .ok content := by
  obtain ⟨place, name, hlocate, hslash, hchild, hentry, rfl⟩ := write_eq_ok_iff.mp h
  have hreaches := reaches_of_locateLast hlocate
  obtain ⟨front, hnames, hwalk⟩ := hreaches.walk
  have hthere := entry?_put_self tree hreaches.placeOf_ne_nil (.file content)
  have hdirectory := directory_kept_put hentry (.file content) hreaches.directory
  refine read_eq_ok_iff.mpr ⟨hreaches.origin, ?_, hthere,
    Path.endsInDirectory_eq_false hreaches.lastPiece hreaches.isName.1 hslash⟩
  -- The walk to the directory goes on as before, and its last step now finds the file.
  have hwalk' := walk_of_directories_kept (fun _ => directory_kept_put hentry (.file content))
    (hdirectory ▸ Option.some_ne_none _) hwalk
  have hfound : FileTree.entry? (tree.put (tree.placeOf path) (.file content)) (place.step name)
      ≠ none := by
    rw [hreaches.step_eq, hthere]
    exact Option.some_ne_none _
  rw [← hreaches.step_eq] at hchild
  have hlast := walk_concat hwalk' hdirectory hchild hfound
  rw [← hnames, hreaches.step_eq] at hlast
  exact hlast

/-! ## Trees that grow -/

/-- What making directories on the way to a path does to a tree: all that was there is kept, and
what is new is a directory on the way. -/
structure Grows (tree next : FileTree) (path : String) : Prop where
  working : next.working = tree.working
  kept : ∀ {place entry}, tree.entry? place = some entry → next.entry? place = some entry
  added : ∀ {place entry}, tree.entry? place = none → next.entry? place = some entry →
    entry = .directory ∧ place ∈ tree.way path

theorem Grows.refl (tree : FileTree) (path : String) : tree.Grows tree path :=
  ⟨rfl, id, fun hnone hsome => absurd (hnone.symm.trans hsome) (Option.some_ne_none _).symm⟩

theorem Grows.trans {last : FileTree} (h : tree.Grows next path) (h' : next.Grows last path) :
    tree.Grows last path := by
  refine ⟨h'.working.trans h.working, fun hentry => h'.kept (h.kept hentry), ?_⟩
  intro place entry hnone hsome
  -- What is new at the end was made on the first part of the way or on the second.
  cases hnext : next.entry? place with
  | none =>
      have hadded := h'.added hnext hsome
      rwa [way_congr h.working] at hadded
  | some middle =>
      cases (h'.kept hnext).symm.trans hsome
      exact h.added hnone hnext

/-- A directory that is made above a path is on the way to it. -/
theorem Grows.of_makeDirectory {above : String} (habove : Path.IsAbove above path)
    (h : tree.makeDirectory above = .ok next) : tree.Grows next path := by
  obtain ⟨hne, hnone, rfl⟩ := makeDirectory_eq_ok h
  refine ⟨rfl, ?_, ?_⟩
  · intro place entry hentry
    have hother : place ≠ tree.placeOf above := by
      rintro rfl
      rw [hnone] at hentry
      cases hentry
    rw [entry?_put_of_ne tree hother, hentry]
  · intro place entry hfree hentry
    by_cases hsame : place = tree.placeOf above
    · subst hsame
      rw [entry?_put_self tree hne] at hentry
      -- The names of a path above another one are among the first names of that one.
      refine ⟨(Option.some.inj hentry).symm, List.mem_map.mpr ⟨Path.names above, ?_, ?_⟩⟩
      · exact (List.mem_inits _ _).mpr habove.names_isPrefix
      · rw [placeOf, start, start, habove.isAbsolute_eq]
    · rw [entry?_put_of_ne tree hsame, hfree] at hentry
      cases hentry

/-- What a file that is delivered does to a tree: it holds the content, what stands elsewhere is
kept, and what else is new is a directory on the way. -/
structure Delivers (tree next : FileTree) (path : String) (content : ByteArray) : Prop where
  working : next.working = tree.working
  readBack : next.read path = .ok content
  delivered : next.entry? (tree.placeOf path) = some (.file content)
  noDirectory : tree.entry? (tree.placeOf path) ≠ some .directory
  kept : ∀ place entry, place ≠ tree.placeOf path → tree.entry? place = some entry →
    next.entry? place = some entry
  added : ∀ place entry, place ≠ tree.placeOf path → tree.entry? place = none →
    next.entry? place = some entry → entry = .directory ∧ place ∈ tree.way path
  readOther : ∀ other old, tree.placeOf other ≠ tree.placeOf path → tree.read other = .ok old →
    next.read other = .ok old

/-- **A file written into a tree that has grown for it is delivered.** -/
theorem Grows.delivers {last : FileTree} {content : ByteArray} (h : tree.Grows next path)
    (hwrite : next.write path content = .ok last) : tree.Delivers last path content := by
  have hplace := placeOf_congr h.working path
  obtain ⟨_, _, hlocate, -, -, hentry, hlast⟩ := write_eq_ok_iff.mp hwrite
  have hne := (reaches_of_locateLast hlocate).placeOf_ne_nil
  rw [hplace] at hne hentry hlast
  have hnoDirectory : tree.entry? (tree.placeOf path) ≠ some .directory :=
    fun hdirectory => hentry (h.kept hdirectory)
  have hother : ∀ {place}, place ≠ tree.placeOf path → last.entry? place = next.entry? place := by
    intro place hplace
    rw [hlast, entry?_put_of_ne next hplace]
  have hkept : ∀ place entry, place ≠ tree.placeOf path → tree.entry? place = some entry →
      last.entry? place = some entry :=
    fun place entry hplace hold => (hother hplace).trans (h.kept hold)
  have hworking : last.working = tree.working := by
    rw [hlast]
    exact h.working
  refine ⟨hworking, read_of_write hwrite, ?_, hnoDirectory, hkept, ?_, ?_⟩
  · rw [hlast, entry?_put_self next hne]
  · intro place entry hplace hnone hsome
    exact h.added hnone ((hother hplace).symm.trans hsome)
  · intro other old hne' hread
    obtain ⟨horigin, hwalk, hfile, hends⟩ := read_eq_ok_iff.mp hread
    have hfile' := hkept _ _ hne' hfile
    have hdirectories : ∀ place, tree.entry? place = some .directory →
        last.entry? place = some .directory := fun place hdirectory =>
      hkept place _ (fun heq => hnoDirectory (heq ▸ hdirectory)) hdirectory
    have hwalk' := walk_of_directories_kept hdirectories (hfile' ▸ Option.some_ne_none _) hwalk
    rw [read_eq_ok_iff, origin_congr hworking, start_congr hworking, placeOf_congr hworking]
    exact ⟨horigin, hwalk', hfile', hends⟩

end FileTree

end SchemaHeader

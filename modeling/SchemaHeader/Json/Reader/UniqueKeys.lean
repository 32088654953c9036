import SchemaHeader.Json.Reader

set_option autoImplicit false

/-! # Objects that were read

The main statement is `uniqueKeys_of_read`: **no object inside a value that was read repeats a
key**, whatever the text says, because a repeated key only changes the value of the field that is
there already.
-/

namespace SchemaHeader.Json

/-! ## Values in lists -/

theorem uniqueKeysItems_iff (items : List Json) :
    UniqueKeysItems items ↔ ∀ item ∈ items, item.UniqueKeys := by
  induction items with
  | nil => simp [UniqueKeysItems]
  | cons item rest ih => simp [UniqueKeysItems, ih]

theorem uniqueKeysFields_iff (fields : Fields) :
    UniqueKeysFields fields ↔ ∀ field ∈ fields, field.2.UniqueKeys := by
  induction fields with
  | nil => simp [UniqueKeysFields]
  | cons field rest ih =>
    obtain ⟨key, value⟩ := field
    simp [UniqueKeysFields, ih]

/-- The fields of an object without repeated keys at any depth. -/
def Fields.Sound (fields : Fields) : Prop :=
  fields.keys.Nodup ∧ ∀ field ∈ fields, field.2.UniqueKeys

theorem uniqueKeys_object (fields : Fields) :
    (Json.object fields).UniqueKeys ↔ fields.Sound := by
  rw [UniqueKeys, uniqueKeysFields_iff]
  rfl

/-- Writing a field keeps fields sound. -/
theorem Fields.Sound.insert {fields : Fields} (h : fields.Sound) (key : String) {value : Json}
    (hv : value.UniqueKeys) : (fields.insert key value).Sound := by
  refine ⟨nodup_keys_insert key value fields h.1, ?_⟩
  have hold := h.2
  clear h
  induction fields with
  | nil =>
    intro field hf
    rw [Fields.insert, List.mem_singleton] at hf
    rw [hf]
    exact hv
  | cons field rest ih =>
    obtain ⟨k, v⟩ := field
    intro field hf
    rw [Fields.insert] at hf
    split at hf
    · rcases List.mem_cons.1 hf with rfl | hf
      · exact hv
      · exact hold field (List.mem_cons_of_mem _ hf)
    · rcases List.mem_cons.1 hf with rfl | hf
      · exact hold (k, v) List.mem_cons_self
      · exact ih (fun f hm => hold f (List.mem_cons_of_mem _ hm)) field hf

/-! ## Readers -/

/-- Every value that a result gives has a property. -/
def Read.Gives {α : Type} {s : List Char} (result : Read α s) (property : α → Prop) : Prop :=
  ∀ value rest, result = .ok (value, rest) → property value

theorem Read.Gives.widen {α : Type} {s t : List Char} {result : Read α t}
    {property : α → Prop} (h : result.Gives property) (hl : t.length ≤ s.length) :
    (result.widen hl).Gives property := by
  intro value rest heq
  cases result with
  | error fault => simp [Read.widen] at heq
  | ok pair =>
    obtain ⟨v, r, hr⟩ := pair
    simp only [Read.widen, Except.ok.injEq, Prod.mk.injEq] at heq
    exact heq.1 ▸ h v ⟨r, hr⟩ rfl

theorem Read.Gives.mapValue {α β : Type} {s : List Char} {result : Read α s}
    {property : β → Prop} {f : α → β} (h : result.Gives fun a => property (f a)) :
    (result.mapValue f).Gives property := by
  intro value rest heq
  cases result with
  | error fault => simp [Read.mapValue] at heq
  | ok pair =>
    obtain ⟨v, r⟩ := pair
    simp only [Read.mapValue, Except.ok.injEq, Prod.mk.injEq] at heq
    exact heq.1 ▸ h v r rfl

theorem Read.gives_error {α : Type} {s : List Char} {property : α → Prop} (fault : Fault) :
    Read.Gives (.error fault : Read α s) property := by
  intro value rest heq
  cases heq

theorem Read.gives_ok {α : Type} {s : List Char} {property : α → Prop} {value : α}
    {rest : { rest : List Char // rest.length < s.length }} (h : property value) :
    Read.Gives (.ok (value, rest) : Read α s) property := by
  intro v r heq
  cases heq
  exact h

/-- A reader of values without repeated keys. -/
def Reader.Unique (value : Reader Json) : Prop :=
  ∀ s, (value s).Gives UniqueKeys

theorem gives_readItems {value : Reader Json} (hv : value.Unique) (n : Nat) :
    ∀ (done : List Json) (s : List Char), s.length = n → (∀ item ∈ done, item.UniqueKeys) →
      (readItems value done s).Gives fun items => ∀ item ∈ items, item.UniqueKeys := by
  induction n using Nat.strongRecOn with
  | _ n ih =>
    intro done s hs hdone
    rw [readItems]
    split
    · exact Read.gives_error _
    · rename_i item rest h heq
      have hitem : item.UniqueKeys := hv s item ⟨rest, h⟩ heq
      have hall : ∀ i ∈ item :: done, i.UniqueKeys := by
        intro i hi
        rcases List.mem_cons.1 hi with rfl | hi
        · exact hitem
        · exact hdone i hi
      split
      · exact Read.gives_error _
      · rename_i c more hmore
        split
        · refine Read.gives_ok fun i hi => hall i ?_
          exact List.mem_reverse.1 hi
        · split
          · split
            · exact Read.gives_error _
            · have hlt : more.length < n := by
                have := length_lt_of_skipBlanks hmore
                omega
              exact (ih more.length hlt (item :: done) more rfl hall).widen _
          · exact Read.gives_error _

theorem gives_readFields {value : Reader Json} (hv : value.Unique) (n : Nat) :
    ∀ (done : Fields) (s : List Char), s.length = n → done.Sound →
      (readFields value done s).Gives Fields.Sound := by
  induction n using Nat.strongRecOn with
  | _ n ih =>
    intro done s hs hdone
    rw [readFields]
    split
    · exact Read.gives_error _
    · rename_i key rest h _
      split
      · exact Read.gives_error _
      · rename_i v rest' h' heq
        have hsound := hdone.insert key (hv rest v ⟨rest', h'⟩ heq)
        split
        · exact Read.gives_error _
        · rename_i c more hmore
          split
          · exact Read.gives_ok hsound
          · split
            · split
              · exact Read.gives_error _
              · have hlt : more.length < n := by
                  have := length_lt_of_skipBlanks hmore
                  omega
                exact (ih more.length hlt _ more rfl hsound).widen _
            · exact Read.gives_error _

theorem unique_readArray {value : Reader Json} (hv : value.Unique) : (readArray value).Unique := by
  intro s
  unfold readArray
  split
  · exact Read.gives_error _
  · split
    · refine Read.gives_ok ?_
      simp [UniqueKeys, UniqueKeysItems]
    · refine Read.Gives.mapValue fun items rest heq => ?_
      show (Json.array items).UniqueKeys
      rw [UniqueKeys, uniqueKeysItems_iff]
      exact gives_readItems hv s.length [] s rfl (by simp) items rest heq

theorem unique_readObject {value : Reader Json} (hv : value.Unique) :
    (readObject value).Unique := by
  intro s
  unfold readObject
  split
  · exact Read.gives_error _
  · split
    · refine Read.gives_ok ?_
      simp [UniqueKeys, UniqueKeysFields]
    · refine Read.Gives.mapValue fun fields rest heq => ?_
      show (Json.object fields).UniqueKeys
      rw [uniqueKeys_object]
      exact gives_readFields hv s.length [] s rfl ⟨by simp [Fields.keys], by simp⟩ fields rest heq

theorem literal_eq {value v : Json} {letters s rest : List Char}
    (h : literal value letters s = .ok (v, rest)) : v = value := by
  induction letters generalizing s with
  | nil =>
    simp only [literal, Except.ok.injEq, Prod.mk.injEq] at h
    exact h.1.symm
  | cons l letters ih =>
    cases s with
    | nil => simp [literal] at h
    | cons c more =>
      rw [literal] at h
      split at h
      · exact ih h
      · simp at h

theorem gives_readLiteral {value : Json} (hv : value.UniqueKeys) (letters : List Char)
    {s t : List Char} (ht : t.length < s.length) :
    (readLiteral value letters t ht).Gives UniqueKeys := by
  unfold readLiteral
  split
  · exact Read.gives_error _
  · rename_i v rest heq
    refine Read.gives_ok ?_
    rw [literal_eq heq]
    exact hv

theorem gives_mapValue_of_forall {α : Type} {s : List Char} (result : Read α s) {f : α → Json}
    (h : ∀ a, (f a).UniqueKeys) : (result.mapValue f).Gives UniqueKeys :=
  Read.Gives.mapValue fun a _ _ => h a

theorem unique_readWith {nested : Bool} {array object : Reader Json} (ha : array.Unique)
    (ho : object.Unique) : (readWith nested array object).Unique := by
  intro s
  unfold readWith
  split
  · exact Read.gives_error _
  · rename_i c rest _
    simp only
    split
    · exact gives_readLiteral (by simp [UniqueKeys]) _ _
    split
    · exact gives_readLiteral (by simp [UniqueKeys]) _ _
    split
    · exact gives_readLiteral (by simp [UniqueKeys]) _ _
    split
    · exact (gives_mapValue_of_forall _ fun _ => by simp [UniqueKeys]).widen _
    split
    · exact (gives_mapValue_of_forall _ fun _ => by simp [UniqueKeys]).widen _
    split
    · exact (gives_mapValue_of_forall _ fun _ => by simp [UniqueKeys]).widen _
    split
    · split
      · refine Read.Gives.widen ?_ _
        split
        · exact ha rest
        · exact ho rest
      · exact Read.gives_error _
    · exact Read.gives_error _

theorem unique_readValue (room : Nat) : (readValue room).Unique := by
  induction room with
  | zero => exact unique_readWith (fun _ => Read.gives_error _) (fun _ => Read.gives_error _)
  | succ room ih => exact unique_readWith (unique_readArray ih) (unique_readObject ih)

/-- **No object inside a value that was read repeats a key.** -/
theorem uniqueKeys_of_read {text : String} {value : Json} (h : read text = .ok value) :
    value.UniqueKeys := by
  unfold read at h
  split at h
  · cases h
  · rename_i v hc
    cases h
    unfold readChars at hc
    split at hc
    · cases hc
    · rename_i v' rest hr heq
      split at hc
      · cases hc
        exact unique_readValue nestingLimit text.toList _ _ heq
      · cases hc

end SchemaHeader.Json

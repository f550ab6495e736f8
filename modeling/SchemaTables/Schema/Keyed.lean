/-! Association lists with text keys, kept in order of first insertion or sorted by code points. The
lemmas say what each operation does to the look-up and to the keys. -/
namespace SchemaTables.Keyed
variable {β : Type}

/-- Binds `key`, replacing what it was bound to. -/
def insert (key : String) (value : β) : List (String × β) → List (String × β)
  | [] => [(key, value)]
  | (k, v) :: rest =>
    if key < k then (key, value) :: (k, v) :: rest
    else if key = k then (key, value) :: rest
    else (k, v) :: insert key value rest

theorem lookup_insert (key : String) (value : β) (fields : List (String × β)) (k : String) :
    (insert key value fields).lookup k = if k = key then some value else fields.lookup k := by
  induction fields with
  | nil => grind [insert]
  | cons field rest ih =>
    obtain ⟨name, old⟩ := field
    unfold insert
    grind

theorem mem_keys_insert (key : String) (value : β) (fields : List (String × β)) (k : String) :
    k ∈ (insert key value fields).map (·.1) ↔ k = key ∨ k ∈ fields.map (·.1) := by
  induction fields with
  | nil => simp [insert]
  | cons field rest ih =>
    obtain ⟨name, old⟩ := field
    unfold insert
    grind

theorem insert_sorted (key : String) (value : β) {fields : List (String × β)}
    (h : (fields.map (·.1)).Pairwise (· < ·)) :
    ((insert key value fields).map (·.1)).Pairwise (· < ·) := by
  induction fields with
  | nil => simp [insert]
  | cons field rest ih =>
    obtain ⟨name, old⟩ := field
    rw [List.map_cons, List.pairwise_cons] at h
    unfold insert
    split
    · next lt =>
      simp only [List.map_cons, List.pairwise_cons]
      refine ⟨fun k hk => ?_, h⟩
      rcases List.mem_cons.mp hk with rfl | hk
      · exact lt
      · exact String.lt_trans lt (h.1 k hk)
    · split
      · next eq => subst eq; exact List.pairwise_cons.mpr h
      · next nlt ne =>
        refine List.pairwise_cons.mpr ⟨fun k hk => ?_, ih h.2⟩
        rcases (mem_keys_insert key value rest k).mp hk with rfl | hk
        · exact Std.lt_of_le_of_ne (String.not_lt.mp nlt) (Ne.symm ne)
        · exact h.1 k hk

theorem length_insert (key : String) (value : β) {fields : List (String × β)}
    (sorted : (fields.map (·.1)).Pairwise (· < ·)) :
    (insert key value fields).length =
      if key ∈ fields.map (·.1) then fields.length else fields.length + 1 := by
  induction fields with
  | nil => rfl
  | cons field rest ih =>
    obtain ⟨name, old⟩ := field
    rw [List.map_cons, List.pairwise_cons] at sorted
    have ih := ih sorted.2
    unfold insert
    split
    · next before =>
      have fresh : key ∉ rest.map (·.1) := fun listed =>
        String.lt_irrefl _ (String.lt_trans before (sorted.1 key listed))
      have other : key ≠ name := fun same => String.lt_irrefl _ (same ▸ before)
      rw [if_neg (by simp [other, fresh])]
      simp
    · split
      · next same => simp [same]
      · next other =>
        simp only [List.length_cons, ih, List.map_cons, List.mem_cons, other, false_or]
        split <;> rfl

/-- The fields under their new keys; of two that meet, the later one stays. -/
def rekey (key : String → String) (fields : List (String × β)) : List (String × β) :=
  fields.foldl (fun bound field => insert (key field.1) field.2 bound) []

theorem rekey_sorted (key : String → String) (fields : List (String × β)) :
    ((rekey key fields).map (·.1)).Pairwise (· < ·) := by
  unfold rekey
  suffices h : ∀ bound : List (String × β), (bound.map (·.1)).Pairwise (· < ·) →
      ((fields.foldl (fun bound field => insert (key field.1) field.2 bound) bound).map
        (·.1)).Pairwise (· < ·) from h [] List.Pairwise.nil
  induction fields with
  | nil => exact fun _ h => h
  | cons field rest ih => exact fun bound h => ih _ (insert_sorted _ _ h)

theorem mem_keys_rekey (key : String → String) (fields : List (String × β)) (k : String) :
    k ∈ (rekey key fields).map (·.1) ↔ ∃ field ∈ fields, key field.1 = k := by
  unfold rekey
  suffices h : ∀ bound : List (String × β),
      k ∈ (fields.foldl (fun bound field => insert (key field.1) field.2 bound) bound).map (·.1) ↔
        k ∈ bound.map (·.1) ∨ ∃ field ∈ fields, key field.1 = k by simpa using h []
  induction fields with
  | nil => simp
  | cons field rest ih =>
    intro bound
    rw [List.foldl_cons, ih, mem_keys_insert]
    simp only [List.mem_cons, exists_eq_or_imp]
    grind

theorem lookup_rekey (key : String → String) (fields : List (String × β)) (k : String) :
    (rekey key fields).lookup k =
      ((fields.filter fun field => key field.1 == k).getLast?).map (·.2) := by
  unfold rekey
  suffices h : ∀ bound : List (String × β),
      (fields.foldl (fun bound field => insert (key field.1) field.2 bound) bound).lookup k =
        (((fields.filter fun field => key field.1 == k).getLast?).map (·.2)).or (bound.lookup k) by
    simpa using h []
  induction fields with
  | nil => simp
  | cons field rest ih =>
    intro bound
    rw [List.foldl_cons, ih, lookup_insert]
    by_cases h : key field.1 = k
    · cases hr : rest.filter fun field => key field.1 == k <;> simp [h, hr, List.getLast?_cons]
    · simp [h, Ne.symm h]

/-- The field that comes last among those with the key `k`. -/
def Last (key : String → String) (fields : List (String × β)) (k name : String) (value : β) : Prop :=
  ∃ before after, fields = before ++ (name, value) :: after ∧ key name = k ∧
    ∀ field ∈ after, key field.1 ≠ k

theorem Last.mem {key : String → String} {fields : List (String × β)} {k name : String} {value : β}
    (h : Last key fields k name value) : (name, value) ∈ fields := by
  obtain ⟨before, after, rfl, -⟩ := h
  simp

theorem last_map_iff {γ : Type} {key : String → String} {fields : List (String × β)}
    {f : String → β → γ} {k name : String} {value : γ} :
    Last key (fields.map fun field => (field.1, f field.1 field.2)) k name value ↔
      ∃ old, Last key fields k name old ∧ f name old = value := by
  constructor
  · rintro ⟨before, after, split, hk, none⟩
    obtain ⟨before, rest, rfl, rfl, hrest⟩ := List.map_eq_append_iff.mp split
    obtain ⟨field, after, rfl, hfield, rfl⟩ := List.map_eq_cons_iff.mp hrest
    cases hfield
    rw [List.forall_mem_map] at none
    exact ⟨field.2, ⟨before, after, rfl, hk, none⟩, rfl⟩
  · rintro ⟨old, ⟨before, after, rfl, hk, none⟩, rfl⟩
    refine ⟨_, _, by rw [List.map_append, List.map_cons], hk, ?_⟩
    rwa [List.forall_mem_map]

theorem getLast?_filter_eq_some_iff {α : Type} {p : α → Bool} {items : List α} {item : α} :
    (items.filter p).getLast? = some item ↔
      ∃ before after, items = before ++ item :: after ∧ p item ∧ ∀ other ∈ after, ¬ p other := by
  rw [List.getLast?_eq_head?_reverse, ← List.filter_reverse, List.head?_filter,
    List.find?_eq_some_iff_append]
  constructor
  · rintro ⟨hp, after, before, split, none⟩
    refine ⟨before.reverse, after.reverse, ?_, hp, fun other h => ?_⟩
    · rw [← List.reverse_reverse items, split]
      simp
    · simpa using none other (List.mem_reverse.mp h)
  · rintro ⟨before, after, rfl, hp, none⟩
    refine ⟨hp, after.reverse, before.reverse, by simp, fun other h => ?_⟩
    simpa using none other (List.mem_reverse.mp h)

theorem lookup_rekey_eq_some_iff {key : String → String} {fields : List (String × β)} {k : String}
    {value : β} :
    (rekey key fields).lookup k = some value ↔ ∃ name, Last key fields k name value := by
  rw [lookup_rekey, Option.map_eq_some_iff]
  constructor
  · rintro ⟨⟨name, _⟩, h, rfl⟩
    obtain ⟨before, after, split, hk, none⟩ := getLast?_filter_eq_some_iff.mp h
    exact ⟨name, before, after, split, by simpa using hk, by simpa using none⟩
  · rintro ⟨name, before, after, split, hk, none⟩
    refine ⟨(name, value), getLast?_filter_eq_some_iff.mpr ⟨before, after, split, ?_, ?_⟩, rfl⟩
    · simpa using hk
    · simpa using none

theorem mem_iff_lookup {fields : List (String × β)} (h : (fields.map (·.1)).Pairwise (· < ·))
    {k : String} {value : β} : (k, value) ∈ fields ↔ fields.lookup k = some value := by
  constructor
  · intro hmem
    obtain ⟨before, after, rfl⟩ := List.append_of_mem hmem
    rw [List.lookup_eq_some_iff]
    refine ⟨before, after, rfl, fun field hfield => ?_⟩
    rw [List.map_append, List.pairwise_append] at h
    have lt : field.1 < k := h.2.2 field.1 (List.mem_map_of_mem hfield) k (by simp)
    rw [bne_iff_ne]
    rintro rfl
    exact String.lt_irrefl _ lt
  · intro hlookup
    obtain ⟨before, after, rfl, -⟩ := List.lookup_eq_some_iff.mp hlookup
    simp

theorem mem_rekey_iff {key : String → String} {fields : List (String × β)} {k : String}
    {value : β} : (k, value) ∈ rekey key fields ↔ ∃ name, Last key fields k name value := by
  rw [mem_iff_lookup (rekey_sorted key fields), lookup_rekey_eq_some_iff]

theorem insert_map {γ : Type} (f : β → γ) (key : String) (value : β) (fields : List (String × β)) :
    insert key (f value) (fields.map fun field => (field.1, f field.2)) =
      (insert key value fields).map fun field => (field.1, f field.2) := by
  induction fields with
  | nil => rfl
  | cons field rest ih =>
    obtain ⟨name, old⟩ := field
    simp only [List.map_cons, insert, ih]
    split
    · rfl
    · split <;> rfl

/-- Re-keying looks at the names alone. -/
theorem rekey_map {γ : Type} (f : β → γ) (key : String → String) (fields : List (String × β)) :
    rekey key (fields.map fun field => (field.1, f field.2)) =
      (rekey key fields).map fun field => (field.1, f field.2) := by
  unfold rekey
  suffices h : ∀ bound : List (String × β),
      (fields.map fun field => (field.1, f field.2)).foldl
          (fun bound field => insert (key field.1) field.2 bound)
          (bound.map fun field => (field.1, f field.2)) =
        (fields.foldl (fun bound field => insert (key field.1) field.2 bound) bound).map
          fun field => (field.1, f field.2) from h []
  induction fields with
  | nil => exact fun _ => rfl
  | cons field rest ih =>
    intro bound
    rw [List.map_cons, List.foldl_cons, List.foldl_cons, ← ih, ← insert_map]

/-- Binds `key` where it stands already, or else at the end. -/
def put (key : String) (value : β) : List (String × β) → List (String × β)
  | [] => [(key, value)]
  | (k, v) :: rest => if key = k then (key, value) :: rest else (k, v) :: put key value rest

/-- The fields with distinct names, each in its first position and with its last value. -/
def distinct (fields : List (String × β)) : List (String × β) :=
  fields.foldl (fun bound field => put field.1 field.2 bound) []

theorem lookup_map {α γ : Type} [BEq α] (f : β → γ) (entries : List (α × β)) (key : α) :
    (entries.map fun entry => (entry.1, f entry.2)).lookup key = (entries.lookup key).map f := by
  induction entries with
  | nil => rfl
  | cons entry rest ih =>
    rw [List.map_cons, List.lookup_cons, List.lookup_cons, ih]
    cases key == entry.1 <;> rfl

theorem mem_of_lookup {α : Type} [BEq α] [LawfulBEq α] {entries : List (α × β)} {key : α} {value : β}
    (found : entries.lookup key = some value) : (key, value) ∈ entries := by
  obtain ⟨before, after, rfl, -⟩ := List.lookup_eq_some_iff.mp found
  exact List.mem_append_right _ List.mem_cons_self

/-- Where keys are distinct, each finds its own value. -/
theorem lookup_of_mem {α : Type} [BEq α] [LawfulBEq α] {entries : List (α × β)}
    (keys : (entries.map (·.1)).Nodup) {key : α} {value : β} (listed : (key, value) ∈ entries) :
    entries.lookup key = some value := by
  obtain ⟨before, after, rfl⟩ := List.append_of_mem listed
  rw [List.lookup_eq_some_iff]
  refine ⟨before, after, rfl, ?_⟩
  intro entry hentry
  rw [List.map_append, List.nodup_append] at keys
  have ne := keys.2.2 entry.1 (List.mem_map_of_mem hentry) key (by simp)
  simpa using fun same => ne same.symm

/-- To meet a key that is there leaves fewer fields that are not met. -/
theorem length_unmet_lt {α : Type} [BEq α] [LawfulBEq α] {fields : List (α × β)} {met : List α}
    {key : α} {value : β} (fresh : ¬ met.contains key) (listed : (key, value) ∈ fields) :
    (fields.filter fun field => !(key :: met).contains field.1).length <
      (fields.filter fun field => !met.contains field.1).length := by
  have split : (fields.filter fun field => !(key :: met).contains field.1) =
      (fields.filter fun field => !met.contains field.1).filter fun field => !(field.1 == key) := by
    rw [List.filter_filter]
    apply List.filter_congr
    intro field _
    simp only [List.contains_cons, Bool.not_or]
  rw [split]
  apply List.length_filter_lt_length_iff_exists.mpr
  refine ⟨(key, value), ?_, by simp⟩
  exact List.mem_filter.mpr ⟨listed, by simpa using fresh⟩

end SchemaTables.Keyed

/-!
# Maps on names

A `NameMap` holds a value for each of some names, in the order of the names. It stands for a table
without an order that is sorted by name each time it is listed. Main statements: inserting changes
what is found at one name (`get?_insert`), and the order is kept by construction.
-/

namespace SqlScript

/-- Values at names, the names strictly increasing. -/
structure NameMap (α : Type) where
  entries : List (String × α)
  sorted : entries.Pairwise (·.1 < ·.1)

namespace NameMap
variable {α β : Type}

/-- The entries with `value` at `name`, in place of what was there. -/
def insertSorted (name : String) (value : α) : List (String × α) → List (String × α)
  | [] => [(name, value)]
  | e :: rest =>
    if name < e.1 then (name, value) :: e :: rest
    else if e.1 < name then e :: insertSorted name value rest
    else (name, value) :: rest

theorem mem_insertSorted {name : String} {value : α} {entries : List (String × α)}
    {e : String × α} (h : e ∈ insertSorted name value entries) :
    e = (name, value) ∨ e ∈ entries := by
  induction entries with
  | nil => simpa [insertSorted] using h
  | cons d rest ih =>
    simp only [insertSorted] at h
    split at h
    · simpa using h
    · split at h
      · rcases List.mem_cons.mp h with rfl | h
        · simp
        · rcases ih h with h | h <;> simp [h]
      · rcases List.mem_cons.mp h with h | h <;> simp [h]

theorem pairwise_insertSorted (name : String) (value : α) {entries : List (String × α)}
    (h : entries.Pairwise (·.1 < ·.1)) :
    (insertSorted name value entries).Pairwise (·.1 < ·.1) := by
  induction entries with
  | nil => simp [insertSorted]
  | cons e rest ih =>
    have ⟨he, hrest⟩ := List.pairwise_cons.mp h
    simp only [insertSorted]
    split
    · next hlt =>
      refine List.pairwise_cons.mpr ⟨fun d hd => ?_, h⟩
      rcases List.mem_cons.mp hd with rfl | hd
      · exact hlt
      · exact String.lt_trans hlt (he d hd)
    · next hle =>
      split
      · next hgt =>
        refine List.pairwise_cons.mpr ⟨fun d hd => ?_, ih hrest⟩
        rcases mem_insertSorted hd with rfl | hd
        · exact hgt
        · exact he d hd
      · next hge =>
        have : name = e.1 := String.le_antisymm hge hle
        subst this
        exact List.pairwise_cons.mpr ⟨he, hrest⟩

/-- `insertSorted`, with the value that was in the place of the new one. -/
def exchangeSorted (name : String) (value : α) :
    List (String × α) → Option α × List (String × α)
  | [] => (none, [(name, value)])
  | e :: rest =>
    if name < e.1 then (none, (name, value) :: e :: rest)
    else if e.1 < name then
      let (old, rest) := exchangeSorted name value rest
      (old, e :: rest)
    else (some e.2, (name, value) :: rest)

theorem exchangeSorted_snd (name : String) (value : α) (entries : List (String × α)) :
    (exchangeSorted name value entries).2 = insertSorted name value entries := by
  induction entries with
  | nil => rfl
  | cons e rest ih =>
    simp only [exchangeSorted, insertSorted]
    split
    · rfl
    · split
      · rw [ih]
      · rfl

def empty : NameMap α := ⟨[], .nil⟩

/-- The map with `value` at `name`, in place of what was there. -/
def insert (m : NameMap α) (name : String) (value : α) : NameMap α :=
  ⟨insertSorted name value m.entries, pairwise_insertSorted name value m.sorted⟩

/-- `insert`, with the value that was at the name. -/
def exchange (m : NameMap α) (name : String) (value : α) : Option α × NameMap α :=
  ((exchangeSorted name value m.entries).1, ⟨(exchangeSorted name value m.entries).2, by
    rw [exchangeSorted_snd]; exact pairwise_insertSorted name value m.sorted⟩)

def get? (m : NameMap α) (name : String) : Option α :=
  (m.entries.find? (·.1 == name)).map (·.2)

def contains (m : NameMap α) (name : String) : Bool :=
  (m.get? name).isSome

def names (m : NameMap α) : List String :=
  m.entries.map (·.1)

def size (m : NameMap α) : Nat :=
  m.entries.length

/-- The map of the given pairs; of two at one name the later counts. -/
def ofList (pairs : List (String × α)) : NameMap α :=
  pairs.foldl (fun m p => m.insert p.1 p.2) empty

def map (f : α → β) (m : NameMap α) : NameMap β :=
  ⟨m.entries.map fun e => (e.1, f e.2), List.pairwise_map.mpr m.sorted⟩

@[simp] theorem get?_empty (name : String) : (empty : NameMap α).get? name = none := rfl

theorem find?_insertSorted (name other : String) (value : α) (entries : List (String × α)) :
    (insertSorted name value entries).find? (·.1 == other) =
      if name = other then some (name, value) else entries.find? (·.1 == other) := by
  induction entries with
  | nil => simp [insertSorted, List.find?_cons]; split <;> simp_all
  | cons e rest ih =>
    simp only [insertSorted]
    split
    · by_cases h : name = other <;> simp [List.find?_cons, h]
    · next hle =>
      split
      · next hgt =>
        rw [List.find?_cons, ih, List.find?_cons]
        by_cases h : e.1 = other
        · have : name ≠ other := fun hn => String.lt_irrefl other (by rwa [h, hn] at hgt)
          simp [h, this]
        · simp only [beq_eq_false_iff_ne.mpr h]
      · next hge =>
        have : name = e.1 := String.le_antisymm hge hle
        by_cases h : name = other <;> simp [← this, h]

theorem get?_insert (m : NameMap α) (name other : String) (value : α) :
    (m.insert name value).get? other = if name = other then some value else m.get? other := by
  simp only [get?, insert, find?_insertSorted]
  split <;> simp

theorem find?_eq_none_of_lt {name : String} {entries : List (String × α)}
    (h : ∀ e ∈ entries, name < e.1) : entries.find? (·.1 == name) = none := by
  rw [List.find?_eq_none]
  intro e he hname
  exact String.lt_irrefl name (eq_of_beq hname ▸ h e he)

theorem exchangeSorted_fst (name : String) (value : α) {entries : List (String × α)}
    (h : entries.Pairwise (·.1 < ·.1)) :
    (exchangeSorted name value entries).1 = (entries.find? (·.1 == name)).map (·.2) := by
  induction entries with
  | nil => rfl
  | cons e rest ih =>
    have ⟨he, hrest⟩ := List.pairwise_cons.mp h
    simp only [exchangeSorted]
    split
    · next hlt =>
      have hall : ∀ d ∈ e :: rest, name < d.1 :=
        List.forall_mem_cons.mpr ⟨hlt, fun d hd => String.lt_trans hlt (he d hd)⟩
      rw [find?_eq_none_of_lt hall]
      rfl
    · next hle =>
      split
      · next hgt =>
        have hne : (e.1 == name) = false :=
          beq_eq_false_iff_ne.mpr fun hn => String.lt_irrefl name (by rwa [hn] at hgt)
        rw [List.find?_cons, hne]
        exact ih hrest
      · next hge =>
        have : name = e.1 := String.le_antisymm hge hle
        simp [this]

/-- What an exchange gives back is what was found before it. -/
theorem exchange_eq (m : NameMap α) (name : String) (value : α) :
    m.exchange name value = (m.get? name, m.insert name value) := by
  simp only [exchange, insert, get?, exchangeSorted_fst name value m.sorted, exchangeSorted_snd]

theorem names_pairwise (m : NameMap α) : m.names.Pairwise (· < ·) :=
  List.pairwise_map.mpr m.sorted

theorem mem_names_iff {m : NameMap α} {name : String} :
    name ∈ m.names ↔ ∃ value, m.get? name = some value := by
  rw [← Option.isSome_iff_exists, get?, Option.isSome_map, List.find?_isSome, names, List.mem_map]
  simp

theorem insertSorted_perm {name : String} (value : α) {entries : List (String × α)}
    (h : ∀ e ∈ entries, e.1 ≠ name) : (insertSorted name value entries).Perm ((name, value) :: entries) := by
  induction entries with
  | nil => exact .refl _
  | cons e rest ih =>
    obtain ⟨he, hrest⟩ := List.forall_mem_cons.mp h
    simp only [insertSorted]
    split
    · exact .refl _
    · next hle =>
      split
      · exact ((ih hrest).cons e).trans (.swap ..)
      · next hge => exact absurd (String.le_antisymm hle hge) he

theorem names_insert_perm {m : NameMap α} {name : String} (h : name ∉ m.names) (value : α) :
    (m.insert name value).names.Perm (name :: m.names) := by
  have hne : ∀ e ∈ m.entries, e.1 ≠ name := fun e he hn => h (List.mem_map.mpr ⟨e, he, hn⟩)
  exact (insertSorted_perm value hne).map Prod.fst

end NameMap
end SqlScript

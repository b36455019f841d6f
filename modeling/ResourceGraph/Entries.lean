/-!
# Entries

A map from strings is the list of its entries, in the order in which their keys first came. `insert` keeps
each key once: a repeated key takes the later value and its first place.
-/

namespace ResourceGraph

/-- The entries of a map, each a key and its value. -/
abbrev Entries (α : Type) := List (String × α)

namespace Entries
variable {α β : Type}

/-- The value of `key`: that of the first entry with this key. -/
def get? (key : String) : Entries α → Option α
  | [] => none
  | entry :: entries => if entry.1 = key then some entry.2 else get? key entries

/-- Gives `key` the value `value`, in the place of an entry with this key or else at the end. -/
def insert (key : String) (value : α) : Entries α → Entries α
  | [] => [(key, value)]
  | entry :: entries =>
    if entry.1 = key then (key, value) :: entries else entry :: insert key value entries

/-- The keys, in order. -/
def keys (entries : Entries α) : List String :=
  entries.map Prod.fst

/-- The entries with every value replaced. -/
def mapValues (f : α → β) (entries : Entries α) : Entries β :=
  entries.map fun entry => (entry.1, f entry.2)

theorem get?_insert (key k : String) (value : α) (entries : Entries α) :
    get? k (insert key value entries) = if key = k then some value else get? k entries := by
  induction entries with
  | nil => simp [insert, get?]
  | cons entry entries ih => grind [insert, get?]

theorem get?_eq_none_iff {key : String} {entries : Entries α} :
    get? key entries = none ↔ key ∉ keys entries := by
  induction entries with
  | nil => simp [get?, keys]
  | cons entry entries ih => grind [get?, keys]

theorem get?_mapValues (f : α → β) (key : String) (entries : Entries α) :
    get? key (mapValues f entries) = (get? key entries).map f := by
  induction entries with
  | nil => rfl
  | cons entry entries ih => grind [get?, mapValues]

theorem keys_insert (key : String) (value : α) (entries : Entries α) :
    keys (insert key value entries) = if key ∈ keys entries then keys entries else keys entries ++ [key] := by
  induction entries with
  | nil => simp [insert, keys]
  | cons entry entries ih =>
    simp only [keys, insert] at *
    split
    · simp [*]
    · simp only [List.map_cons, ih, List.mem_cons]
      grind

theorem nodup_keys_insert (key : String) (value : α) {entries : Entries α} (h : (keys entries).Nodup) :
    (keys (insert key value entries)).Nodup := by
  rw [keys_insert]
  split
  · exact h
  · rw [List.nodup_append]
    grind

theorem mapValues_insert (f : α → β) (key : String) (value : α) (entries : Entries α) :
    mapValues f (insert key value entries) = insert key (f value) (mapValues f entries) := by
  induction entries with
  | nil => rfl
  | cons entry entries ih =>
    simp only [mapValues, insert, List.map_cons] at *
    split <;> simp_all

end Entries

end ResourceGraph

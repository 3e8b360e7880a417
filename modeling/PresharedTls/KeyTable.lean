import PresharedTls.Bytes

/-!
# Key tables

The shared keys that a server knows, by the identity that names each one.
-/

namespace PresharedTls

structure KeyTable where
  /-- Identities with their keys. -/
  entries : List (Bytes × Bytes)
  distinct : (entries.map (·.1)).Nodup

namespace KeyTable

def empty : KeyTable :=
  ⟨[], .nil⟩

def isEmpty (table : KeyTable) : Bool :=
  table.entries.isEmpty

def size (table : KeyTable) : Nat :=
  table.entries.length

/-- Adds a key, in the stead of one for the same identity. -/
def insert (table : KeyTable) (identity key : Bytes) : KeyTable where
  entries := (identity, key) :: table.entries.filter fun entry => entry.1 ≠ identity
  distinct := by
    rw [List.map_cons, List.nodup_cons]
    refine ⟨by simp, List.Nodup.sublist ?_ table.distinct⟩
    exact (List.filter_sublist).map _

def resolve (table : KeyTable) (identity : Bytes) : Option Bytes :=
  table.entries.lookup identity

/-- An added key is found under its identity, and what is found under others stays the same. -/
theorem resolve_insert (table : KeyTable) (identity key other : Bytes) :
    (table.insert identity key).resolve other = if other = identity then some key else table.resolve other := by
  unfold resolve insert
  rw [List.lookup_cons]
  by_cases same : other = identity
  · simp [same]
  · have differs : (other == identity) = false := by simpa using same
    rw [differs, if_neg same]
    induction table.entries with
    | nil => rfl
    | cons entry rest ih =>
      obtain ⟨known, secret⟩ := entry
      by_cases replaced : known = identity
      · subst replaced
        simpa [List.lookup_cons, differs] using ih
      · cases found : other == known <;> simp_all [List.lookup_cons]

/-- The table with the entries of a list added in order. -/
def ofList (entries : List (Bytes × Bytes)) : KeyTable :=
  entries.foldl (fun table entry => table.insert entry.1 entry.2) empty

/-- The identities in the lexicographic order of their bytes. -/
def identities (table : KeyTable) : List Bytes :=
  (table.entries.map (·.1)).mergeSort fun a b => decide (a ≤ b)

end KeyTable

end PresharedTls

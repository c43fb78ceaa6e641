/-! Finite maps from names to values. The entries are kept in rising order of
their names, so two maps that bind the same names to the same values are equal
and a map has one written form. -/

namespace PeerPool

/-- Names bound to values, each name at most once. -/
structure Dict (α : Type) where
  entries : List (String × α)
  sorted : entries.Pairwise (fun first second => first.1 < second.1)
deriving DecidableEq, Repr

namespace Dict

variable {α : Type}

def empty : Dict α := ⟨[], .nil⟩

instance : EmptyCollection (Dict α) := ⟨empty⟩

instance : Inhabited (Dict α) := ⟨empty⟩

def isEmpty (dict : Dict α) : Bool := dict.entries.isEmpty

def get? (dict : Dict α) (name : String) : Option α := dict.entries.lookup name

def contains (dict : Dict α) (name : String) : Bool := (dict.get? name).isSome

/-- Puts a binding at its place in a sorted list, over an earlier one of the same name. -/
def insertEntry (name : String) (value : α) : List (String × α) → List (String × α)
  | [] => [(name, value)]
  | (other, kept) :: rest =>
    if name < other then (name, value) :: (other, kept) :: rest
    else if name = other then (name, value) :: rest
    else (other, kept) :: insertEntry name value rest

theorem mem_insertEntry {name : String} {value : α} {entries : List (String × α)}
    {entry : String × α} (member : entry ∈ insertEntry name value entries) :
    entry = (name, value) ∨ entry ∈ entries := by
  fun_induction insertEntry name value entries with
  | case1 => simpa using member
  | case2 => simpa using member
  | case3 => simp only [List.mem_cons] at member ⊢; grind
  | case4 other kept rest _ _ ih => simp only [List.mem_cons] at member ⊢; grind

theorem sorted_insertEntry {name : String} {value : α} {entries : List (String × α)}
    (sorted : entries.Pairwise (fun first second => first.1 < second.1)) :
    (insertEntry name value entries).Pairwise (fun first second => first.1 < second.1) := by
  fun_induction insertEntry name value entries with
  | case1 => simp
  | case2 other kept rest below =>
    refine List.pairwise_cons.2 ⟨?_, sorted⟩
    intro entry member
    rcases List.mem_cons.1 member with rfl | later
    · exact below
    · exact String.lt_trans below ((List.pairwise_cons.1 sorted).1 entry later)
  | case3 rest kept => exact List.pairwise_cons.2 (List.pairwise_cons.1 sorted)
  | case4 other kept rest above distinct ih =>
    obtain ⟨least, rest_sorted⟩ := List.pairwise_cons.1 sorted
    refine List.pairwise_cons.2 ⟨?_, ih rest_sorted⟩
    intro entry member
    rcases mem_insertEntry member with rfl | later
    · have below : other ≤ name := String.not_lt.1 above
      exact Std.lt_of_le_of_ne below (Ne.symm distinct)
    · exact least entry later

theorem lookup_insertEntry (name : String) (value : α) (entries : List (String × α)) :
    (insertEntry name value entries).lookup name = some value := by
  fun_induction insertEntry name value entries with
  | case1 => exact List.lookup_cons_self
  | case2 => exact List.lookup_cons_self
  | case3 => exact List.lookup_cons_self
  | case4 other kept rest _ distinct ih => rw [List.lookup_cons, beq_false_of_ne distinct, ih]

/-- Binds `name` to `value`, whatever it was bound to before. -/
def insert (dict : Dict α) (name : String) (value : α) : Dict α :=
  ⟨insertEntry name value dict.entries, sorted_insertEntry dict.sorted⟩

@[simp] theorem get?_insert (dict : Dict α) (name : String) (value : α) : (dict.insert name value).get? name = some value :=
  lookup_insertEntry name value dict.entries

def singleton (name : String) (value : α) : Dict α := (empty : Dict α).insert name value

/-- A name listed twice is bound to its last value. -/
def ofList (entries : List (String × α)) : Dict α :=
  entries.foldl (fun dict entry => dict.insert entry.1 entry.2) empty

def keys (dict : Dict α) : List String := dict.entries.map Prod.fst

end Dict

end PeerPool

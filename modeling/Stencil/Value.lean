import Stencil.Association
import Stencil.Decimal.Reading

/-!
# Values

The data that templates are rendered with: nil, booleans, numbers, texts, lists and objects.
Integers and doubles are told apart. An object is a list of fields in ascending order of their
names; `Fields.get?` and `Fields.insert` are its look-up and update.
-/

namespace Stencil

/-- An integer, or a finite double. -/
inductive Number where
  | int (i : Int)
  | float (f : Float)
  deriving Repr, Inhabited

inductive Value where
  | null
  | bool (b : Bool)
  | number (n : Number)
  | text (s : String)
  | list (items : List Value)
  | object (fields : List (String × Value))
  deriving Repr, Inhabited

/-- Named values in ascending order of their names: the fields of an object, the names of a scope. -/
abbrev Fields := List (String × Value)

namespace Fields

def get? (fields : Fields) (name : String) : Option Value := fields.lookup name

def insert (name : String) (value : Value) : Fields → Fields
  | [] => [(name, value)]
  | (k, v) :: rest =>
    if name = k then (name, value) :: rest
    else if name < k then (name, value) :: (k, v) :: rest
    else (k, v) :: insert name value rest

def ofList (entries : List (String × Value)) : Fields :=
  entries.foldl (fun fields (k, v) => insert k v fields) []

@[simp] theorem get?_nil (name : String) : get? [] name = none := rfl

theorem get?_cons (k : String) (v : Value) (rest : Fields) (name : String) :
    get? ((k, v) :: rest) name = if name = k then some v else get? rest name :=
  lookup_cons_ite name k v rest

/-- After an insertion the name has the new value and every other name has its old one. -/
theorem get?_insert (name : String) (value : Value) (fields : Fields) (other : String) :
    get? (insert name value fields) other = if other = name then some value else get? fields other := by
  induction fields with
  | nil => simp [insert, get?_cons]
  | cons f rest ih =>
    obtain ⟨k, v⟩ := f
    unfold insert
    split
    · next h => subst h; simp only [get?_cons]; split <;> rfl
    · split
      · simp only [get?_cons]
      · next h _ =>
        simp only [get?_cons, ih]
        split
        · next h1 => subst h1; simp [Ne.symm h]
        · rfl

/-- The names ascend, so that none is there twice. -/
def Ascending (fields : Fields) : Prop := fields.Pairwise fun f g => f.1 < g.1

theorem mem_insert {name : String} {value : Value} {fields : Fields} {f : String × Value}
    (h : f ∈ insert name value fields) : f = (name, value) ∨ f ∈ fields := by
  induction fields with
  | nil => exact .inl (List.mem_singleton.1 h)
  | cons g rest ih =>
    unfold insert at h
    split at h
    · exact (List.mem_cons.1 h).imp_right (List.mem_cons_of_mem _)
    · split at h
      · exact List.mem_cons.1 h
      · rcases List.mem_cons.1 h with rfl | h
        · exact .inr List.mem_cons_self
        · exact (ih h).imp_right (List.mem_cons_of_mem _)

theorem Ascending.insert {fields : Fields} (h : fields.Ascending) (name : String) (value : Value) :
    (insert name value fields).Ascending := by
  induction fields with
  | nil => exact List.pairwise_singleton _ _
  | cons f rest ih =>
    obtain ⟨k, v⟩ := f
    obtain ⟨hk, hrest⟩ := List.pairwise_cons.1 h
    unfold Fields.insert
    split
    · next e => exact List.pairwise_cons.2 ⟨e ▸ hk, hrest⟩
    · next ne =>
      split
      · next lt =>
        refine List.pairwise_cons.2 ⟨fun f hf => ?_, h⟩
        rcases List.mem_cons.1 hf with rfl | hf
        · exact lt
        · exact String.lt_trans lt (hk f hf)
      · next ge =>
        have gt : k < name := Decidable.byContradiction fun le =>
          ne (String.le_antisymm (String.not_lt.1 le) (String.not_lt.1 ge))
        refine List.pairwise_cons.2 ⟨fun f hf => ?_, ih hrest⟩
        rcases mem_insert hf with rfl | hf
        · exact gt
        · exact hk f hf

theorem ascending_ofList (entries : List (String × Value)) : (ofList entries).Ascending :=
  List.foldlRecOn entries _ List.Pairwise.nil fun _ h e _ => h.insert e.1 e.2

/-- Look-up finds exactly what is in ascending fields. -/
theorem Ascending.get?_eq_some_iff {fields : Fields} (h : fields.Ascending) {name : String}
    {v : Value} : get? fields name = some v ↔ (name, v) ∈ fields := by
  induction fields with
  | nil => simp
  | cons f rest ih =>
    obtain ⟨k, w⟩ := f
    obtain ⟨hk, hrest⟩ := List.pairwise_cons.1 h
    rw [get?_cons]
    split
    · next e =>
      subst e
      have hnot : (name, v) ∉ rest := fun hm => String.lt_irrefl name (hk _ hm)
      simp [hnot, eq_comm]
    · next ne => simp [ne, ih hrest]

end Fields

namespace Number

/-- The number as a signed integer of 64 bits, if it is one. -/
def int64? : Number → Option Int
  | .int i => Decimal.int64? i
  | .float _ => none

def toFloat : Number → Float
  | .int i => Decimal.ofInt i
  | .float f => f

end Number

namespace Value

def int (i : Int) : Value := .number (.int i)

/-- A double as a value; infinities and not-a-number have none and give nil. -/
def float (f : Float) : Value := if f.isFinite then .number (.float f) else .null

mutual

/-- Equality of values; an integer never equals a double. -/
def same : Value → Value → Bool
  | .null, .null => true
  | .bool a, .bool b => a == b
  | .number (.int a), .number (.int b) => a == b
  | .number (.float a), .number (.float b) => a == b
  | .text a, .text b => a == b
  | .list a, .list b => sameItems a b
  | .object a, .object b => sameFields a b
  | _, _ => false

def sameItems : List Value → List Value → Bool
  | [], [] => true
  | a :: as, b :: bs => a.same b && sameItems as bs
  | _, _ => false

def sameFields : List (String × Value) → List (String × Value) → Bool
  | [], [] => true
  | (j, a) :: as, (k, b) :: bs => j == k && a.same b && sameFields as bs
  | _, _ => false

end

end Value

end Stencil

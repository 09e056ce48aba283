/-
# Theory.LexicalPath -- paths as texts

A path is read without the file system: it is split at its separators, an empty component
and `.` stay where they are, `..` goes up, every other name goes down.  What is appended
behind a separator is read after what stands before it (`normalise_append`), so an
appended text without `..` never leaves the directory it is appended to
(`holds_append`).  What counts as a separator is a parameter.
-/
import Mathlib.Data.List.Infix

namespace Clumsy.Theory.LexicalPath

set_option autoImplicit false

abbrev Name := List Char

variable (isSeparator : Char → Bool)

def components (path : List Char) : List Name := path.splitOnP isSeparator

def thisDirectory : Name := ['.']

def parentDirectory : Name := ['.', '.']

/-- A place: whether it is reckoned from the root, and the names that lead there. -/
structure Place where
  rooted : Bool
  names  : List Name
  deriving DecidableEq, Repr

/-- One level up.  The root is its own parent and a drive its own root; above the start of
a path that is not rooted one goes up once more. -/
def Place.up (p : Place) : Place :=
  match p.names.getLast? with
  | none => if p.rooted then p else { p with names := [parentDirectory] }
  | some last =>
      if last = parentDirectory then { p with names := p.names ++ [parentDirectory] }
      else if last.getLast? = some ':' then p
      else { p with names := p.names.dropLast }

def Place.down (p : Place) (name : Name) : Place := { p with names := p.names ++ [name] }

/-- Whether a name leads anywhere. -/
def leads (name : Name) : Bool := name != [] && name != thisDirectory

def Place.go (p : Place) (name : Name) : Place :=
  if leads name = false then p
  else if name = parentDirectory then p.up
  else p.down name

/-- Where a path starts. -/
def start (path : List Char) : Place :=
  { rooted := (path.head?.map isSeparator).getD false, names := [] }

def normalise (path : List Char) : Place :=
  (components isSeparator path).foldl Place.go (start isSeparator path)

/-- The second place is the first one or lies below it. -/
def Place.Holds (p q : Place) : Prop := q.rooted = p.rooted ∧ p.names <+: q.names

instance (p q : Place) : Decidable (p.Holds q) := inferInstanceAs (Decidable (_ ∧ _))

variable {isSeparator}

theorem components_cons (c : Char) (path : List Char) :
    components isSeparator (c :: path) =
      if isSeparator c then [] :: components isSeparator path
      else (components isSeparator path).modifyHead (List.cons c) :=
  List.splitOnP_cons_eq_if_modifyHead c path

theorem components_ne_nil (path : List Char) : components isSeparator path ≠ [] :=
  List.splitOnP_ne_nil isSeparator path

theorem components_append {s : Char} (separates : isSeparator s = true) (path rest : List Char) :
    components isSeparator (path ++ s :: rest) =
      components isSeparator path ++ components isSeparator rest :=
  List.splitOnP_append_cons path rest separates

/-- Another spelling of the separators does not matter. -/
theorem components_map {f : Char → Char} (separates : ∀ c, isSeparator (f c) = isSeparator c)
    (same : ∀ c, isSeparator c = false → f c = c) (path : List Char) :
    components isSeparator (path.map f) = components isSeparator path := by
  induction path with
  | nil => rfl
  | cons c path ih =>
      rw [List.map_cons, components_cons, components_cons, separates, ih]
      split_ifs with here
      · rfl
      · rw [same c (Bool.not_eq_true _ |>.mp here)]

theorem normalise_map {f : Char → Char} (separates : ∀ c, isSeparator (f c) = isSeparator c)
    (same : ∀ c, isSeparator c = false → f c = c) (path : List Char) :
    normalise isSeparator (path.map f) = normalise isSeparator path := by
  rw [normalise, components_map separates same, normalise]
  congr 1
  cases path with
  | nil => rfl
  | cons c path => simp [start, separates]

/-- Names other than `..` are walked down one after the other. -/
theorem foldl_go (names : List Name) (p : Place) (noParent : parentDirectory ∉ names) :
    names.foldl Place.go p = { p with names := p.names ++ names.filter leads } := by
  induction names generalizing p with
  | nil => simp
  | cons name names ih =>
      obtain ⟨here, later⟩ := not_or.1 (List.mem_cons.not.1 noParent)
      rw [List.foldl_cons, ih _ later, Place.go]
      cases counts : leads name with
      | false => simp [counts]
      | true => simp [counts, Ne.symm here, Place.down]

/-- Appending behind a separator goes on from where the path leads. -/
theorem normalise_append {s : Char} (separates : isSeparator s = true) {path : List Char}
    (nonempty : path ≠ []) (rest : List Char) :
    normalise isSeparator (path ++ s :: rest) =
      (components isSeparator rest).foldl Place.go (normalise isSeparator path) := by
  have same : start isSeparator (path ++ s :: rest) = start isSeparator path := by
    cases path with
    | nil => exact absurd rfl nonempty
    | cons c path => rfl
  rw [normalise, components_append separates, List.foldl_append, same]
  rfl

/-- **Confinement.**  Without a `..` what is appended lies below what it is appended to. -/
theorem holds_append {s : Char} (separates : isSeparator s = true) {path : List Char}
    (nonempty : path ≠ []) {rest : List Char}
    (noParent : parentDirectory ∉ components isSeparator rest) :
    (normalise isSeparator path).Holds (normalise isSeparator (path ++ s :: rest)) := by
  rw [normalise_append separates nonempty, foldl_go _ _ noParent]
  exact ⟨rfl, List.prefix_append _ _⟩

/-- The first component begins the path. -/
theorem head_components (path : List Char) :
    ∀ name ∈ (components isSeparator path).head?, name <+: path := by
  induction path with
  | nil => simp [components]
  | cons c path ih =>
      intro name member
      obtain ⟨head, rest, same⟩ := List.exists_cons_of_ne_nil
        (@components_ne_nil isSeparator path)
      rw [components_cons, same] at member
      split_ifs at member
      · obtain rfl : [] = name := by simpa using member
        exact List.nil_prefix
      · obtain rfl : c :: head = name := by simpa using member
        exact (List.prefix_cons_inj c).2 (ih head (by simp [same]))

/-- Every component stands in the path. -/
theorem infix_of_mem_components {path : List Char} {name : Name}
    (component : name ∈ components isSeparator path) : name <:+: path := by
  induction path generalizing name with
  | nil =>
      obtain rfl : name = [] := by simpa [components] using component
      exact List.infix_rfl
  | cons c path ih =>
      have begins := @head_components isSeparator (c :: path)
      obtain ⟨head, rest, same⟩ := List.exists_cons_of_ne_nil
        (@components_ne_nil isSeparator path)
      rw [components_cons, same] at component begins
      have rest_ : ∀ name ∈ head :: rest, name <:+: c :: path := fun name member =>
        (ih (same ▸ member)).trans (List.suffix_cons c path).isInfix
      split_ifs at component begins
      · rcases List.mem_cons.1 component with rfl | later
        · exact List.nil_infix
        · exact rest_ name later
      · rcases List.mem_cons.1 component with rfl | later
        · exact (begins _ (by simp)).isInfix
        · exact rest_ name (List.mem_cons_of_mem head later)

end Clumsy.Theory.LexicalPath

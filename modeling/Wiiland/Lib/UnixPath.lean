/-
Unix paths as their comparisons see them.  Repeated and trailing separators do not
count, and neither do `.` components that do not begin a relative path.
-/
import Wiiland.Lib.Lines

namespace UnixPath

def separator : UInt8 := 47

/-- The component `.`. -/
def current : List UInt8 := [46]

/-- A path by its components; `..` is a component like any other. -/
structure Path where
  rooted : Bool
  components : List (List UInt8)
deriving DecidableEq, Repr

/-- The pieces of a text between its separators. -/
def pieces (text : List UInt8) : List (List UInt8) :=
  let (whole, rest) := Lines.cut separator text
  whole ++ [rest]

def ofBytes (text : List UInt8) : Path :=
  let named := (pieces text).filter fun piece => piece != [] && piece != current
  if text.head? = some separator then ⟨true, named⟩
  else if (pieces text).head? = some current then ⟨false, current :: named⟩
  else ⟨false, named⟩

/-- The paths `a//b/./c/` and `a/b/c` are one. -/
example : ofBytes [97, 47, 47, 98, 47, 46, 47, 99, 47] = ofBytes [97, 47, 98, 47, 99] := by
  decide

/-- The component `..`. -/
def upward : List UInt8 := [46, 46]

/-- The last component, unless it is `.` or `..`. -/
def Path.fileName (path : Path) : Option (List UInt8) :=
  path.components.getLast?.filter fun last => last != current && last != upward

/-- The path without its last component. -/
def Path.parent (path : Path) : Option Path :=
  if path.components = [] then none
  else some { path with components := path.components.dropLast }

def Path.isEmpty (path : Path) : Bool := !path.rooted && path.components.isEmpty

/-- A path with more components behind it. -/
def Path.extend (path : Path) (components : List (List UInt8)) : Path :=
  { path with components := path.components ++ components }

/-- The path and all its parents, from the first of them on. -/
def Path.ancestors (path : Path) : List Path :=
  path.components.inits.map fun components => { path with components }

/-- The text of a path. -/
def Path.toBytes (path : Path) : List UInt8 :=
  if path.rooted then
    if path.components = [] then [separator] else path.components.flatMap (separator :: ·)
  else List.intercalate [separator] path.components

/-- A component that a text can have between its separators. -/
def Component (component : List UInt8) : Prop :=
  component ≠ [] ∧ separator ∉ component ∧ component ≠ current

theorem pieces_carry {carried stream first : List UInt8} {others : List (List UInt8)}
    (hcarried : separator ∉ carried) (hstream : pieces stream = first :: others) :
    pieces (carried ++ stream) = (carried ++ first) :: others := by
  rw [pieces] at hstream ⊢
  rw [Lines.cut_carry hcarried]
  cases hcut : (Lines.cut separator stream).1 with
  | nil =>
      simp only [hcut, List.nil_append] at hstream ⊢
      cases hstream
      rfl
  | cons line lines =>
      simp only [hcut, List.cons_append] at hstream ⊢
      cases hstream
      rfl

theorem pieces_separator (text : List UInt8) : pieces (separator :: text) = [] :: pieces text := by
  simp [pieces, Lines.cut]

theorem pieces_separated {components : List (List UInt8)}
    (hcomponents : ∀ component ∈ components, separator ∉ component) :
    pieces (components.flatMap (separator :: ·)) = [] :: components := by
  induction components with
  | nil => rfl
  | cons component components ih =>
      rw [List.forall_mem_cons] at hcomponents
      rw [List.flatMap_cons, List.cons_append, pieces_separator,
        pieces_carry hcomponents.1 (ih hcomponents.2), List.append_nil]

/-- The text of an absolute path is read as that path. -/
theorem ofBytes_toBytes {path : Path} (hrooted : path.rooted = true)
    (hcomponents : ∀ component ∈ path.components, Component component) :
    ofBytes path.toBytes = path := by
  obtain ⟨rooted, components⟩ := path
  cases hrooted
  cases components with
  | nil => rfl
  | cons component components =>
      have hpieces : pieces (Path.toBytes ⟨true, component :: components⟩) =
          [] :: component :: components :=
        pieces_separated fun part hpart => (hcomponents part hpart).2.1
      have hnamed : ([] :: component :: components).filter
          (fun piece => piece != [] && piece != current) = component :: components := by
        rw [List.filter_cons_of_neg (by simp), List.filter_eq_self]
        intro part hpart
        obtain ⟨hfilled, _, hother⟩ := hcomponents part hpart
        rw [Bool.and_eq_true, bne_iff_ne, bne_iff_ne]
        exact ⟨hfilled, hother⟩
      rw [ofBytes, hpieces, hnamed]
      rfl

end UnixPath

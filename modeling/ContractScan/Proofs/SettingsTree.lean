import ContractScan.Proofs.LexemeClass
import ContractScan.Settings.Layer
import Mathlib.Data.List.Basic
import Mathlib.Data.List.TakeWhile

/-
  Single settings in a tree of settings. Each of the six has a key (`Key`), which tells where its
  value lies in the tree and how a value of the right type is read. Merging the table of a file
  whose entries fit gives a key the last value that the file has for it, and leaves the key alone
  if it has none (`Holds.mergeFile`); a tree that gives each key a value is read as the settings
  with these values (`ofNode_of_holds`).
-/

namespace ContractScan.Settings

open ContractScan.Text (lowercase)

/-! ## Keys -/

/-- The six settings, each with the type of its values. -/
inductive Key : Type → Type where
  | tabSize : Key Nat
  | indentation : Key Bool
  | regionMarkers : Key Bool
  | lexical : Key Bool
  | structural : Key Bool
  | format : Key TokenFormat

namespace Key

variable {α β : Type}

/-- The section of a key. -/
def sect : Key α → Section
  | tabSize | indentation | regionMarkers => .folding
  | lexical | structural => .diagnostics
  | format => .output

/-- The name of a key in its section. -/
def name : Key α → String
  | tabSize => "tab_size"
  | indentation => "indentation"
  | regionMarkers => "region_markers"
  | lexical => "lexical"
  | structural => "structural"
  | format => "format"

/-- A key in full. -/
def text (k : Key α) : String := k.sect.key ++ "." ++ k.name

/-- The path of a key. -/
def path (k : Key α) : KeyPath := ⟨k.sect.key, [.key k.name]⟩

/-- The value of a key. -/
def get : Key α → Settings → α
  | tabSize, s => s.folding.tabSize
  | indentation, s => s.folding.indentation
  | regionMarkers, s => s.folding.regionMarkers
  | lexical, s => s.diagnostics.lexical
  | structural, s => s.diagnostics.structural
  | format, s => s.format

/-- The value that a scalar of the right type writes: a number that is not negative, a truth
value, or the name of a format. -/
def read? : Key α → Scalar → Option α
  | tabSize, .integer i => if 0 ≤ i then some i.toNat else none
  | indentation, .boolean b => some b
  | regionMarkers, .boolean b => some b
  | lexical, .boolean b => some b
  | structural, .boolean b => some b
  | format, .text s => TokenFormat.ofName? (lowercase s)
  | _, _ => none

theorem read?_natCast (n : Nat) : tabSize.read? (.integer n) = some n := by
  simp only [read?, Int.natCast_nonneg, if_true, Int.toNat_natCast]

theorem lowercase_name (k : Key α) : lowercase k.name = k.name := by cases k <;> decide

theorem parse?_text (k : Key α) : KeyPath.parse? k.text = some k.path := by cases k <;> decide

/-- A key is told by its path, so what one of two keys with one path reads, the other does. -/
theorem exists_read?_of_path_eq {k : Key α} {l : Key β} (h : l.path = k.path) {x : Scalar} {b : β}
    (hb : l.read? x = some b) : ∃ a, k.read? x = some a := by
  cases k <;> cases l <;> first | exact ⟨b, hb⟩ | exact absurd h (by decide)

end Key

theorem Section.key_injective {s t : Section} (h : s.key = t.key) : s = t := by
  cases s <;> cases t <;> first | rfl | exact absurd h (by decide)

/-! ## Files -/

/-- The last result that a function has on a list. -/
def lastSome? {α β : Type} (f : α → Option β) (xs : List α) : Option β := xs.reverse.findSome? f

theorem lastSome?_nil {α β : Type} (f : α → Option β) : lastSome? f [] = none := rfl

theorem lastSome?_cons {α β : Type} (f : α → Option β) (x : α) (xs : List α) :
    lastSome? f (x :: xs) = (lastSome? f xs).or (f x) := by
  rw [lastSome?, List.reverse_cons, List.findSome?_append, List.findSome?_singleton, lastSome?]

/-- The last result, over a value that holds before. -/
theorem getD_lastSome?_cons {α β : Type} (f : α → Option β) (x : α) (xs : List α) (b : β) :
    (lastSome? f (x :: xs)).getD b = (lastSome? f xs).getD ((f x).getD b) := by
  rw [lastSome?_cons, Option.getD_or]

/-- A value of a file that has no parts. -/
def Scalar.ofToml? : Toml.Value → Option Scalar
  | .text s => some (.text s)
  | .integer i => some (.integer i)
  | .float f => some (.float f)
  | .boolean b => some (.boolean b)
  | _ => none

theorem Node.ofToml_of_scalar {v : Toml.Value} {x : Scalar} (h : Scalar.ofToml? v = some x)
    (origin : Option String) : ofToml origin v = .scalar origin x := by
  cases v <;> simp only [Scalar.ofToml?, Option.some.injEq, reduceCtorEq] at h
  all_goals
    subst h
    rw [ofToml]

/-- The entries of a table of a file. -/
def fieldsOf : Toml.Value → Toml.Table
  | .table fields => fields
  | _ => []

/-- The path that a key of a file stands for. -/
def filePath (key : String) : KeyPath := (KeyPath.parse? key).getD ⟨lowercase key, []⟩

namespace Key

variable {α : Type}

/-- The value that a value of a file gives to a key. -/
def ofToml? (k : Key α) (v : Toml.Value) : Option α := (Scalar.ofToml? v).bind k.read?

/-- The value that an entry of its section gives to a key. -/
def inField? (k : Key α) (e : String × Toml.Value) : Option α :=
  if lowercase e.1 = k.name then k.ofToml? e.2 else none

/-- The value that an entry of a file gives to a key: an entry for its section, or one for the key
itself. -/
def inEntry? (k : Key α) (e : String × Toml.Value) : Option α :=
  if filePath e.1 = ⟨k.sect.key, []⟩ then lastSome? k.inField? (fieldsOf e.2)
  else if filePath e.1 = k.path then k.ofToml? e.2
  else none

/-- The value that a file gives to a key. -/
def inTable? (k : Key α) (t : Toml.Table) : Option α := lastSome? k.inEntry? t

end Key

/-- Whether an entry fits into a section: if its name is that of a key, its value has the right
type. -/
def FitsSection (s : Section) (e : String × Toml.Value) : Prop :=
  ∀ {α : Type} (k : Key α), k.sect = s → lowercase e.1 = k.name → ∃ a, k.ofToml? e.2 = some a

/-- Whether an entry fits into a file of settings: it is a section, the value of a key, or about
something else. -/
inductive FitsFile : String × Toml.Value → Prop
  | sect {key : String} {fields : Toml.Table} (s : Section) (hpath : filePath key = ⟨s.key, []⟩)
      (h : ∀ e ∈ fields, FitsSection s e) : FitsFile (key, .table fields)
  | setting {key : String} {v : Toml.Value} {α : Type} {a : α} (k : Key α)
      (hpath : filePath key = k.path) (h : k.ofToml? v = some a) : FitsFile (key, v)
  | other {key : String} {v : Toml.Value} (h : ∀ s : Section, (filePath key).first ≠ s.key) :
      FitsFile (key, v)

/-! ## Keys in a tree -/

/-- The node where a key lies. -/
def Node.setting? {α : Type} (root : Node) (k : Key α) : Option Node :=
  (root.entries.lookup k.sect.key).bind fun n => n.entries.lookup k.name

/-- Whether a node is a scalar that writes a value of a key. -/
def Gives {α : Type} (n : Option Node) (k : Key α) (a : α) : Prop :=
  ∃ o x, n = some (.scalar o x) ∧ k.read? x = some a

/-- Whether a tree gives a key a value. -/
def Holds {α : Type} (root : Node) (k : Key α) (a : α) : Prop := Gives (root.setting? k) k a

namespace Node

theorem lookup_withEntry (root : Node) (key : String) (n : Node) (k : String) :
    (root.withEntry key n).entries.lookup k =
      if k = key then some n else root.entries.lookup k :=
  lookup_put key n root.entries k

theorem set_scalar (root : Node) (key : String) (o : Option String) (x : Scalar) :
    root.set key (.scalar o x) = root.withEntry (lowercase key) (.scalar o x) := by
  rw [set]
  simp

/-- A key that is set leaves the others alone. -/
theorem lookup_set_of_ne (root : Node) (n : Node) {key k : String} (h : k ≠ lowercase key) :
    (root.set key n).entries.lookup k = root.entries.lookup k := by
  cases n with
  | scalar o x => rw [set_scalar, lookup_withEntry, if_neg h]
  | list o ns =>
    rw [set, lookup_withEntry, if_neg h]
    simp
  | table o es => rw [set, lookup_withEntry, if_neg h]

theorem lookup_changeEntry (root : Node) (key : String) (f : Node → Node) (k : String) :
    (root.changeEntry key f).entries.lookup k =
      if k = key then some (f ((root.entries.lookup key).getD missing))
      else root.entries.lookup k :=
  lookup_withEntry root key _ k

/-- A node that is set at the path of a key lies there, and the other keys stay. -/
theorem setting?_setPath {α β : Type} (root : Node) (k : Key α) (l : Key β) (o : Option String)
    (x : Scalar) : (root.setPath l.path (.scalar o x)).setting? k =
      if k.path = l.path then some (.scalar o x) else root.setting? k := by
  have hset : root.setPath l.path (.scalar o x) =
      root.changeEntry l.sect.key fun n => n.set l.name (.scalar o x) := rfl
  rw [hset, setting?, lookup_changeEntry]
  by_cases hs : k.sect.key = l.sect.key
  · rw [if_pos hs, Option.bind_some, set_scalar, l.lowercase_name, lookup_withEntry]
    by_cases hn : k.name = l.name
    · rw [if_pos hn, if_pos (by rw [Key.path, Key.path, hs, hn])]
    · have hpath : k.path ≠ l.path := fun h =>
        hn (by simpa [Key.path] using congrArg KeyPath.steps h)
      rw [if_neg hn, if_neg hpath, setting?, hs]
      cases root.entries.lookup l.sect.key <;> rfl
  · have hpath : k.path ≠ l.path := fun h => hs (congrArg KeyPath.first h)
    rw [if_neg hs, if_neg hpath, setting?]

end Node

/-! ## Names of files -/

/-- A character of a name keeps its lower case. -/
theorem lowerChar_lowerChar {c : Char} (h : KeyPath.isNameChar c) :
    (Text.lowerChar c).flatMap Text.lowerChar = Text.lowerChar c := by
  have hall : ∀ n : Fin 128, (Text.lowerChar (Char.ofNat n)).flatMap Text.lowerChar =
      Text.lowerChar (Char.ofNat n) := by decide
  have hlt : c.toNat < 128 := by
    have h : (c.isAlpha || c.isDigit || c == ' ' || c == '_' || c == '-') = true := h
    simp only [Bool.or_eq_true, beq_iff_eq] at h
    rcases h with (((h | h) | rfl) | rfl) | rfl
    · exact Lexeme.toNat_lt_of_isWordStart (by rw [Lexeme.isWordStart, h]; rfl)
    · exact Lexeme.toNat_lt_of_isDigit h
    · decide
    · decide
    · decide
  have h := hall ⟨c.toNat, hlt⟩
  rwa [Char.ofNat_toNat] at h

theorem lowercase_first {key : String} {p : KeyPath} (h : KeyPath.parse? key = some p) :
    lowercase p.first = p.first := by
  have hname {cs : List Char} (hcs : ∀ c ∈ cs, KeyPath.isNameChar c) :
      lowercase (KeyPath.nameOf cs) = KeyPath.nameOf cs := by
    simp only [lowercase, KeyPath.nameOf, String.toList_ofList, List.flatMap_assoc]
    exact congrArg String.ofList (List.flatMap_congr fun c hc => lowerChar_lowerChar (hcs c hc))
  rw [KeyPath.parse?] at h
  split at h
  · cases h
  · obtain ⟨steps, -, rfl⟩ := Option.map_eq_some_iff.mp h
    exact hname fun c hc => List.mem_takeWhile_imp hc

/-- A key without steps is set, in whatever case it is written. -/
theorem exists_setFileKey_eq {key first : String} (h : filePath key = ⟨first, []⟩) (root n : Node) :
    ∃ name, lowercase name = first ∧ root.setFileKey key n = root.set name n := by
  rw [filePath] at h
  cases hp : KeyPath.parse? key with
  | none =>
    rw [hp] at h
    exact ⟨key, congrArg KeyPath.first h, by rw [Node.setFileKey, hp]⟩
  | some p =>
    rw [hp, Option.getD_some] at h
    subst h
    have hfirst := lowercase_first hp
    refine ⟨first, hfirst, ?_⟩
    rw [Node.setFileKey, hp]
    simp only [Node.setPath, List.getLast?_nil]

/-- A key with steps is a path. -/
theorem setFileKey_eq_setPath {key : String} (h : (filePath key).steps ≠ []) (root n : Node) :
    root.setFileKey key n = root.setPath (filePath key) n := by
  rw [filePath] at h ⊢
  cases hp : KeyPath.parse? key with
  | none => exact absurd (by rw [hp]; rfl) h
  | some p => rw [Node.setFileKey, hp, Option.getD_some]

/-- An entry of a file changes nothing outside what its path starts with. -/
theorem lookup_setFileKey_of_ne {key k : String} (h : (filePath key).first ≠ k) (root n : Node) :
    (root.setFileKey key n).entries.lookup k = root.entries.lookup k := by
  cases hsteps : (filePath key).steps with
  | nil =>
    have hpath : filePath key = ⟨(filePath key).first, []⟩ := by rw [← hsteps]
    obtain ⟨name, hname, heq⟩ := exists_setFileKey_eq hpath root n
    rw [heq]
    exact Node.lookup_set_of_ne root n (by rw [hname]; exact h.symm)
  | cons step steps =>
    have hne : (filePath key).steps ≠ [] := by rw [hsteps]; exact List.cons_ne_nil _ _
    rw [setFileKey_eq_setPath hne, Node.setPath]
    split
    · rename_i hlast
      exact absurd (List.getLast?_eq_none_iff.mp hlast) hne
    · rw [Node.lookup_changeEntry, if_neg h.symm]

/-! ## Merging a file -/

section
variable {α : Type} {k : Key α} {a : α}

theorem exists_of_ofToml? {v : Toml.Value} (h : k.ofToml? v = some a) :
    ∃ x, Scalar.ofToml? v = some x ∧ k.read? x = some a :=
  Option.bind_eq_some_iff.mp h

/-- A value of the right type for a key of a section fits into it. -/
theorem FitsSection.setting {e : String × Toml.Value} (k : Key α) (hname : lowercase e.1 = k.name)
    (h : k.ofToml? e.2 = some a) : FitsSection k.sect e := by
  intro β l hsect hname'
  have hpath : k.path = l.path := by rw [Key.path, Key.path, hsect, ← hname, hname']
  obtain ⟨x, hx, hread⟩ := exists_of_ofToml? h
  obtain ⟨b, hb⟩ := Key.exists_read?_of_path_eq hpath hread
  exact ⟨b, by rw [Key.ofToml?, hx, Option.bind_some, hb]⟩

/-- An entry of a section gives its key a value, and leaves the others alone. -/
theorem Gives.set {sec : Node} {e : String × Toml.Value} (hfits : FitsSection k.sect e)
    (h : Gives (sec.entries.lookup k.name) k a) (origin : Option String) :
    Gives ((sec.set e.1 (Node.ofToml origin e.2)).entries.lookup k.name) k
      ((k.inField? e).getD a) := by
  rw [Key.inField?]
  by_cases hname : lowercase e.1 = k.name
  · obtain ⟨b, hb⟩ := hfits k rfl hname
    obtain ⟨x, hx, hread⟩ := exists_of_ofToml? hb
    rw [if_pos hname, hb, Option.getD_some, Node.ofToml_of_scalar hx, Node.set_scalar,
      Node.lookup_withEntry, if_pos hname.symm]
    exact ⟨origin, x, rfl, hread⟩
  · rw [if_neg hname, Option.getD_none, Node.lookup_set_of_ne _ _ (Ne.symm hname)]
    exact h

/-- The entries of a section give its keys their last values. -/
theorem Gives.setAll {sec : Node} {fields : Toml.Table}
    (hfits : ∀ e ∈ fields, FitsSection k.sect e) (h : Gives (sec.entries.lookup k.name) k a)
    (origin : Option String) :
    Gives ((sec.setAll (Node.ofTomlEntries origin fields)).entries.lookup k.name) k
      ((lastSome? k.inField? fields).getD a) := by
  induction fields generalizing sec a with
  | nil =>
    rw [Node.ofTomlEntries, Node.setAll]
    exact h
  | cons e fields ih =>
    rw [Node.ofTomlEntries, Node.setAll, getD_lastSome?_cons]
    exact ih (fun e he => hfits e (List.mem_cons_of_mem _ he))
      (h.set (hfits e List.mem_cons_self) origin)

/-- A key that holds lies in a table. -/
theorem Holds.exists_section {root : Node} (h : Holds root k a) :
    ∃ o es, root.entries.lookup k.sect.key = some (.table o es) ∧ Gives (es.lookup k.name) k a := by
  obtain ⟨o, x, hnode, hread⟩ := h
  obtain ⟨sec, hsec, hx⟩ := Option.bind_eq_some_iff.mp hnode
  cases sec with
  | scalar => cases hx
  | list => cases hx
  | table o' es => exact ⟨o', es, hsec, o, x, hx, hread⟩

theorem Holds.gives {root : Node} {o : Option String} {es : List (String × Node)}
    (h : Holds root k a) (hsec : root.entries.lookup k.sect.key = some (.table o es)) :
    Gives (es.lookup k.name) k a := by
  rwa [Holds, Node.setting?, hsec] at h

/-- A value of a key is set, and the other keys stay. -/
theorem Holds.setPath {β : Type} {root : Node} {l : Key β} {b : β} {x : Scalar}
    (hread : l.read? x = some b) (h : Holds root k a) (origin : Option String) :
    Holds (root.setPath l.path (.scalar origin x)) k
      ((if l.path = k.path then k.read? x else none).getD a) := by
  rw [Holds, Node.setting?_setPath]
  by_cases hpath : l.path = k.path
  · obtain ⟨c, hc⟩ := Key.exists_read?_of_path_eq hpath hread
    rw [if_pos hpath, if_pos hpath.symm, hc]
    exact ⟨origin, x, rfl, hc⟩
  · rw [if_neg hpath, if_neg (Ne.symm hpath)]
    exact h

/-- An entry of a file gives a key the value that it has for it, and leaves the others alone. -/
theorem Holds.setFileKey {root : Node} {e : String × Toml.Value} (hfits : FitsFile e)
    (h : Holds root k a) (origin : Option String) :
    Holds (root.setFileKey e.1 (Node.ofToml origin e.2)) k ((k.inEntry? e).getD a) := by
  rw [Key.inEntry?]
  cases hfits with
  | @sect key fields s hpath hfields =>
    obtain ⟨name, hname, heq⟩ := exists_setFileKey_eq hpath root
      (Node.ofToml origin (.table fields))
    rw [heq, hpath]
    by_cases hs : s = k.sect
    · subst hs
      obtain ⟨o, es, hsec, hgives⟩ := h.exists_section
      rw [if_pos rfl, Holds, Node.setting?, Node.ofToml, Node.set, Node.lookup_withEntry, hname,
        if_pos rfl, hsec, Option.bind_some]
      have htable : Gives ((Node.table o es).entries.lookup k.name) k a := hgives
      exact htable.setAll hfields origin
    · have hkey : s.key ≠ k.sect.key := fun h => hs (Section.key_injective h)
      have hne : (⟨s.key, []⟩ : KeyPath) ≠ ⟨k.sect.key, []⟩ := fun h =>
        hkey (congrArg KeyPath.first h)
      have hne' : (⟨s.key, []⟩ : KeyPath) ≠ k.path := fun h => hkey (congrArg KeyPath.first h)
      rw [if_neg hne, if_neg hne', Option.getD_none, Holds, Node.setting?,
        Node.lookup_set_of_ne _ _ (by rw [hname]; exact hkey.symm)]
      exact h
  | @setting key v β b l hpath hv =>
    obtain ⟨x, hx, hread⟩ := exists_of_ofToml? hv
    have hsteps : (filePath key).steps ≠ [] := by
      rw [hpath]
      exact List.cons_ne_nil _ _
    have hne : l.path ≠ ⟨k.sect.key, []⟩ := fun h =>
      List.cons_ne_nil _ _ (congrArg KeyPath.steps h)
    have hread' : k.ofToml? v = k.read? x := by rw [Key.ofToml?, hx, Option.bind_some]
    rw [setFileKey_eq_setPath hsteps, hpath, if_neg hne, Node.ofToml_of_scalar hx, hread']
    exact h.setPath hread origin
  | @other key v hother =>
    have hne : filePath key ≠ ⟨k.sect.key, []⟩ := fun h =>
      hother k.sect (congrArg KeyPath.first h)
    have hne' : filePath key ≠ k.path := fun h => hother k.sect (congrArg KeyPath.first h)
    rw [if_neg hne, if_neg hne', Option.getD_none, Holds, Node.setting?,
      lookup_setFileKey_of_ne (hother k.sect)]
    exact h

/-- A file gives a key the last value that it has for it. -/
theorem Holds.mergeFile {root : Node} {t : Toml.Table} (hfits : ∀ e ∈ t, FitsFile e)
    (h : Holds root k a) (origin : String) :
    Holds (root.mergeFile origin t) k ((k.inTable? t).getD a) := by
  rw [Node.mergeFile, Key.inTable?]
  induction t generalizing root a with
  | nil => exact h
  | cons e t ih =>
    rw [List.foldl_cons, getD_lastSome?_cons]
    exact ih (fun e he => hfits e (List.mem_cons_of_mem _ he))
      (h.setFileKey (hfits e List.mem_cons_self) (some origin))

end

/-! ## Reading the tree -/

/-- How the value of a key is read. -/
def Key.reader {α : Type} : Key α → String → Node → Except Error α
  | .tabSize => natural
  | .indentation | .regionMarkers | .lexical | .structural => truth
  | .format => formatOfNode

theorem Key.reader_of_read? {α : Type} {k : Key α} {x : Scalar} {a : α} (h : k.read? x = some a)
    (key : String) (o : Option String) : k.reader key (.scalar o x) = .ok a := by
  cases k
  case tabSize =>
    cases x <;> simp only [Key.read?, reduceCtorEq, Option.ite_none_right_eq_some] at h
    obtain ⟨hi, h⟩ := h
    rw [← Option.some.inj h]
    exact if_pos hi
  case format =>
    cases x <;> simp only [Key.read?, reduceCtorEq] at h
    rw [reader, formatOfNode, formatOfName, h]
  all_goals
    cases x <;> simp only [Key.read?, reduceCtorEq, Option.some.injEq] at h
    rw [← h]
    rfl

/-- A key of a section is read. -/
theorem Gives.readKey {α : Type} {k : Key α} {a : α} {es : List (String × Node)}
    (h : Gives (es.lookup k.name) k a) (place : Nat) :
    Settings.readKey k.reader k.sect (.named es) place k.name = .ok (some a) := by
  obtain ⟨o, x, hnode, hread⟩ := h
  rw [Settings.readKey, valueOf, hnode]
  exact congrArg (Functor.map some) (Key.reader_of_read? hread _ o)

section
variable {o : Option String} {es : List (String × Node)}

theorem foldingOf_of_gives {f : FoldingSettings}
    (ht : Gives (es.lookup Key.tabSize.name) .tabSize f.tabSize)
    (hi : Gives (es.lookup Key.indentation.name) .indentation f.indentation)
    (hr : Gives (es.lookup Key.regionMarkers.name) .regionMarkers f.regionMarkers) :
    foldingOf (some (.table o es)) = .ok f := by
  have ht : readKey natural .folding (.named es) 0 "tab_size" = .ok (some f.tabSize) := ht.readKey 0
  have hi : readKey truth .folding (.named es) 1 "indentation" = .ok (some f.indentation) :=
    hi.readKey 1
  have hr : readKey truth .folding (.named es) 2 "region_markers" = .ok (some f.regionMarkers) :=
    hr.readKey 2
  simp only [foldingOf, sourceOf, bind, Except.bind, ht, hi, hr, require]
  rfl

theorem diagnosticsOf_of_gives {d : DiagnosticSettings}
    (hl : Gives (es.lookup Key.lexical.name) .lexical d.lexical)
    (hs : Gives (es.lookup Key.structural.name) .structural d.structural) :
    diagnosticsOf (some (.table o es)) = .ok d := by
  have hl : readKey truth .diagnostics (.named es) 0 "lexical" = .ok (some d.lexical) :=
    hl.readKey 0
  have hs : readKey truth .diagnostics (.named es) 1 "structural" = .ok (some d.structural) :=
    hs.readKey 1
  simp only [diagnosticsOf, sourceOf, bind, Except.bind, hl, hs, require]
  rfl

theorem outputOf_of_gives {f : TokenFormat} (hf : Gives (es.lookup Key.format.name) .format f) :
    outputOf (some (.table o es)) = .ok f := by
  have hf : readKey formatOfNode .output (.named es) 0 "format" = .ok (some f) := hf.readKey 0
  simp only [outputOf, sourceOf, bind, Except.bind, hf, require]

end

/-- A tree that gives each key its value of some settings is read as these settings. -/
theorem ofNode_of_holds {root : Node} {s : Settings}
    (h : ∀ {α : Type} (k : Key α), Holds root k (k.get s)) : ofNode root = .ok s := by
  -- the keys of a section lie in the table where the first of them lies
  obtain ⟨_, _, hfolding, htabSize⟩ := (h .tabSize).exists_section
  obtain ⟨_, _, hdiagnostics, hlexical⟩ := (h .lexical).exists_section
  obtain ⟨_, _, houtput, hformat⟩ := (h .format).exists_section
  have hf : foldingOf (root.entries.lookup "folding") = .ok s.folding :=
    (congrArg foldingOf hfolding).trans (foldingOf_of_gives htabSize
      ((h .indentation).gives hfolding) ((h .regionMarkers).gives hfolding))
  have hd : diagnosticsOf (root.entries.lookup "diagnostics") = .ok s.diagnostics :=
    (congrArg diagnosticsOf hdiagnostics).trans (diagnosticsOf_of_gives hlexical
      ((h .structural).gives hdiagnostics))
  have ho : outputOf (root.entries.lookup "output") = .ok s.format :=
    (congrArg outputOf houtput).trans (outputOf_of_gives hformat)
  cases root with
  | scalar => cases hfolding
  | list => cases hfolding
  | table o es =>
    simp only [Node.entries] at hf hd ho
    simp only [ofNode, bind, Except.bind, hf, hd, ho]
    rfl

/-- The tree where nothing is set gives each key its standard value. -/
theorem holds_standardNode {α : Type} (k : Key α) : Holds standardNode k (k.get .standard) := by
  cases k <;> exact ⟨none, _, rfl, rfl⟩

end ContractScan.Settings

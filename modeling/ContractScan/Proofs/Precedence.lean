import ContractScan.Proofs.SettingsTree
import ContractScan.Terminal
import Mathlib

/-
  Which layer decides a setting. Where the layers fit, settings are always loaded, and each of them
  is the last single value that is set for its key; else the value in the last file that has one;
  else the standard value (`load_exact`). So the order between files and single values does not
  matter, and in a terminal the option for the tab size goes over the file that is asked for, and
  that file over the file of the project.

  Files are merged into the tree of the settings one after another, which is `Holds.mergeFile` once
  for each file. Single values are collected by key path first (`record`), and what is collected
  keeps the last value of every path (`lastSome?_foldl_record`).
-/

namespace ContractScan.Settings

/-! ## What layers say -/

namespace Layer

/-- Whether a layer is a file. -/
def isFile : Layer → Bool
  | file _ _ => true
  | value _ _ => false

/-- The table of the file at a path, if there is one. -/
def table? (files : FileView) (path : String) : Option Toml.Table :=
  match readFile files path with
  | .ok (_, text) => Toml.parse? text
  | .error _ => none

/-- Whether a layer fits: a file of settings, a file that may be missing and cannot be read, or a
value of the right type for a key. -/
inductive Fits (files : FileView) : Layer → Prop
  | file {path origin text : String} {t : Toml.Table} {required : Bool}
      (hread : readFile files path = .ok (origin, text)) (hparse : Toml.parse? text = some t)
      (h : ∀ e ∈ t, FitsFile e) : Fits files (.file path required)
  | missing {path : String} {e : Error} (hread : readFile files path = .error e) :
      Fits files (.file path false)
  | value {key : String} {x : Scalar} {α : Type} {a : α} (k : Key α)
      (hpath : KeyPath.parse? key = some k.path) (h : k.read? x = some a) :
      Fits files (.value key x)

/-- The key path and value of a layer that sets one value. -/
def pair? : Layer → Option (KeyPath × Scalar)
  | file _ _ => none
  | value key x => (KeyPath.parse? key).map fun p => (p, x)

end Layer

namespace Key

variable {α : Type}

/-- The value that the file at a path gives to a key. -/
def atPath? (k : Key α) (files : FileView) (path : String) : Option α :=
  (Layer.table? files path).bind k.inTable?

/-- The value that a layer gives to a key if it is a file. -/
def inFile? (k : Key α) (files : FileView) : Layer → Option α
  | .file path _ => k.atPath? files path
  | .value _ _ => none

/-- The value that a key path with a value gives to a key. -/
def inPair? (k : Key α) (e : KeyPath × Scalar) : Option α :=
  if e.1 = k.path then k.read? e.2 else none

/-- The value that a layer gives to a key if it sets one value. -/
def inValue? (k : Key α) (l : Layer) : Option α := l.pair?.bind k.inPair?

/-- The value that layers give to a key: the last single value, else that of the last file, else
the standard value. -/
def settled (k : Key α) (files : FileView) (layers : List Layer) : α :=
  ((lastSome? k.inValue? layers).or (lastSome? (k.inFile? files) layers)).getD (k.get .standard)

end Key

/-- The settings that layers give. -/
def ofLayers (files : FileView) (layers : List Layer) : Settings :=
  ⟨⟨Key.tabSize.settled files layers, Key.indentation.settled files layers,
    Key.regionMarkers.settled files layers⟩,
    ⟨Key.lexical.settled files layers, Key.structural.settled files layers⟩,
    Key.format.settled files layers⟩

theorem Key.get_ofLayers {α : Type} (k : Key α) (files : FileView) (layers : List Layer) :
    k.get (ofLayers files layers) = k.settled files layers := by
  cases k <;> rfl

/-! ## Files -/

section
variable {α : Type} (k : Key α) {files : FileView} {path : String}

theorem Key.atPath?_of_parse? {origin text : String} {t : Toml.Table}
    (hread : Layer.readFile files path = .ok (origin, text)) (hparse : Toml.parse? text = some t) :
    k.atPath? files path = k.inTable? t := by
  rw [atPath?, Layer.table?, hread]
  simp only [hparse, Option.bind_some]

theorem Key.atPath?_of_error {e : Error} (hread : Layer.readFile files path = .error e) :
    k.atPath? files path = none := by
  rw [atPath?, Layer.table?, hread]
  rfl

end

/-- A file is looked for under its path first, and then with the ending of a TOML file. -/
theorem candidates_cases (path : String) : Layer.candidates path = [path] ∨
    Layer.candidates path = [path, plainPath path ++ ".toml"] := by
  rw [Layer.candidates]
  split
  · exact Or.inl rfl
  · split
    · exact Or.inl rfl
    · exact Or.inr rfl

/-- A text at a path is read. -/
theorem readFile_of_eq_ok {files : FileView} {path text : String}
    (h : files path = .ok text.toUTF8) :
    Layer.readFile files path = .ok (plainPath path, text) := by
  have hfile : files.isFile path = true := by rw [FileView.isFile, h]
  have hfind : Layer.find? files path = some path := by
    rw [Layer.find?]
    rcases candidates_cases path with hpaths | hpaths <;> rw [hpaths, List.find?_cons_of_pos hfile]
  have htext : files.readText path = .ok text := by
    have hbytes : String.fromUTF8? text.toUTF8 = some text := dif_pos text.isValidUTF8
    rw [FileView.readText, h]
    simp only [bind, Except.bind, hbytes]
    rfl
  rw [Layer.readFile, hfind]
  simp only [htext]

/-- Files that fit can be merged, and give a key the value of the last file that has one. -/
theorem exists_mergeFiles {files : FileView} {layers : List Layer}
    (hfits : ∀ l ∈ layers, l.Fits files) (root : Node) :
    ∃ merged, Layer.mergeFiles files layers root = .ok merged ∧
      ∀ {α : Type} {k : Key α} {a : α}, Holds root k a →
        Holds merged k ((lastSome? (k.inFile? files) layers).getD a) := by
  induction layers generalizing root with
  | nil => exact ⟨root, rfl, fun h => h⟩
  | cons l layers ih =>
    have ih := ih fun l hl => hfits l (List.mem_cons_of_mem _ hl)
    cases hfits l List.mem_cons_self with
    | @file path origin text t required hread hparse h =>
      obtain ⟨merged, hmerged, hholds⟩ := ih (root.mergeFile origin t)
      have hfile : Layer.mergeFile files path required root = .ok (root.mergeFile origin t) := by
        rw [Layer.mergeFile, hread]
        simp only [hparse]
      refine ⟨merged, ?_, fun {α k a} ha => ?_⟩
      · rw [Layer.mergeFiles, hfile]
        exact hmerged
      · rw [getD_lastSome?_cons, Key.inFile?, k.atPath?_of_parse? hread hparse]
        exact hholds (ha.mergeFile h origin)
    | @missing path e hread =>
      obtain ⟨merged, hmerged, hholds⟩ := ih root
      refine ⟨merged, ?_, fun {α k a} ha => ?_⟩
      · rw [Layer.mergeFiles, Layer.mergeFile, hread]
        exact hmerged
      · rw [getD_lastSome?_cons, Key.inFile?, k.atPath?_of_error hread]
        exact hholds ha
    | value =>
      obtain ⟨merged, hmerged, hholds⟩ := ih root
      exact ⟨merged, hmerged, fun ha => by rw [getD_lastSome?_cons]; exact hholds ha⟩

/-! ## Single values -/

/-- Whether a key path with a value sets a key to a value of the right type. -/
def SetsKey (e : KeyPath × Scalar) : Prop :=
  ∃ (α : Type) (l : Key α) (b : α), e.1 = l.path ∧ l.read? e.2 = some b

theorem exists_inPair?_of_setsKey {e : KeyPath × Scalar} (h : SetsKey e) {α : Type} {k : Key α}
    (hpath : e.1 = k.path) : ∃ a, k.inPair? e = some a := by
  obtain ⟨β, l, b, hl, hread⟩ := h
  rw [Key.inPair?, if_pos hpath]
  exact Key.exists_read?_of_path_eq (hl.symm.trans hpath) hread

theorem inPair?_eq_none {e : KeyPath × Scalar} {α : Type} {k : Key α} (h : e.1 ≠ k.path) :
    k.inPair? e = none := if_neg h

theorem lastSome?_inPair?_eq_none {vs : List (KeyPath × Scalar)} {α : Type} {k : Key α}
    (h : k.path ∉ vs.map Prod.fst) : lastSome? k.inPair? vs = none := by
  rw [lastSome?, List.findSome?_eq_none_iff]
  intro e he
  refine inPair?_eq_none fun hpath => h ?_
  exact List.mem_map.mpr ⟨e, List.mem_reverse.mp he, hpath⟩

namespace Layer

theorem mem_record {p : KeyPath} {x : Scalar} {vs : List (KeyPath × Scalar)}
    {e : KeyPath × Scalar} (h : e ∈ record p x vs) : e = (p, x) ∨ e ∈ vs := by
  induction vs with
  | nil => exact Or.inl (List.mem_singleton.mp h)
  | cons v vs ih =>
    obtain ⟨q, y⟩ := v
    rw [record] at h
    by_cases hq : q = p
    · rw [if_pos hq] at h
      rcases List.mem_cons.mp h with rfl | h
      · exact Or.inl (by rw [hq])
      · exact Or.inr (List.mem_cons_of_mem _ h)
    · rw [if_neg hq] at h
      rcases List.mem_cons.mp h with rfl | h
      · exact Or.inr List.mem_cons_self
      · exact (ih h).imp_right (List.mem_cons_of_mem _)

/-- Each key path is recorded once. -/
theorem nodup_record (p : KeyPath) (x : Scalar) {vs : List (KeyPath × Scalar)}
    (h : (vs.map Prod.fst).Nodup) : ((record p x vs).map Prod.fst).Nodup := by
  induction vs with
  | nil => simp [record]
  | cons v vs ih =>
    obtain ⟨q, y⟩ := v
    rw [record]
    by_cases hq : q = p
    · rw [if_pos hq]
      exact h
    · obtain ⟨hnew, hrest⟩ := List.nodup_cons.mp h
      rw [if_neg hq]
      refine List.nodup_cons.mpr ⟨fun hmem => ?_, ih hrest⟩
      obtain ⟨e, he, heq⟩ := List.mem_map.mp hmem
      rcases mem_record he with rfl | he
      · exact hq heq.symm
      · exact hnew (List.mem_map.mpr ⟨e, he, heq⟩)

section
variable {α : Type} (k : Key α)

/-- What is recorded last holds. -/
theorem lastSome?_record {p : KeyPath} {x : Scalar} {vs : List (KeyPath × Scalar)}
    (hfits : SetsKey (p, x)) (h : (vs.map Prod.fst).Nodup) :
    lastSome? k.inPair? (record p x vs) = (k.inPair? (p, x)).or (lastSome? k.inPair? vs) := by
  induction vs with
  | nil => rw [record, lastSome?_cons, lastSome?_nil, Option.none_or, Option.or_none]
  | cons v vs ih =>
    obtain ⟨q, y⟩ := v
    obtain ⟨hnew, hrest⟩ := List.nodup_cons.mp h
    rw [record]
    by_cases hq : q = p
    · subst hq
      rw [if_pos rfl, lastSome?_cons, lastSome?_cons]
      by_cases hpath : q = k.path
      · obtain ⟨a, ha⟩ := exists_inPair?_of_setsKey hfits hpath
        rw [lastSome?_inPair?_eq_none (by rwa [← hpath]), ha]
        rfl
      · rw [inPair?_eq_none hpath, inPair?_eq_none hpath]
        rfl
    · rw [if_neg hq, lastSome?_cons, lastSome?_cons, ih hrest, Option.or_assoc]

/-- What is recorded keeps the last value of every key. -/
theorem lastSome?_foldl_record {xs vs : List (KeyPath × Scalar)} (hfits : ∀ e ∈ xs, SetsKey e)
    (h : (vs.map Prod.fst).Nodup) :
    lastSome? k.inPair? (xs.foldl (fun vs (p, v) => record p v vs) vs) =
      (lastSome? k.inPair? xs).or (lastSome? k.inPair? vs) := by
  induction xs generalizing vs with
  | nil => rfl
  | cons e xs ih =>
    rw [List.foldl_cons, ih (fun e he => hfits e (List.mem_cons_of_mem _ he)) (nodup_record _ _ h),
      lastSome?_record k (hfits e List.mem_cons_self) h, lastSome?_cons, Option.or_assoc]

end

theorem mem_foldl_record {xs vs : List (KeyPath × Scalar)} {e : KeyPath × Scalar}
    (h : e ∈ xs.foldl (fun vs (p, v) => record p v vs) vs) : e ∈ xs ∨ e ∈ vs := by
  induction xs generalizing vs with
  | nil => exact Or.inr h
  | cons x xs ih =>
    rcases ih h with h | h
    · exact Or.inl (List.mem_cons_of_mem _ h)
    · rcases mem_record h with rfl | h
      · exact Or.inl List.mem_cons_self
      · exact Or.inr h

theorem Fits.setsKey {files : FileView} {l : Layer} (h : l.Fits files) {e : KeyPath × Scalar}
    (he : l.pair? = some e) : SetsKey e := by
  cases h with
  | file => cases he
  | missing => cases he
  | value k hpath h =>
    rw [pair?, hpath] at he
    cases he
    exact ⟨_, k, _, rfl, h⟩

theorem mapM_override? {files : FileView} {layers : List Layer}
    (hfits : ∀ l ∈ layers, l.Fits files) : layers.mapM override? = .ok (layers.map pair?) := by
  induction layers with
  | nil => rfl
  | cons l layers ih =>
    have hl : override? l = .ok l.pair? := by
      cases hfits l List.mem_cons_self with
      | file => rfl
      | missing => rfl
      | value k hpath => rw [override?, pair?, hpath]; rfl
    rw [List.mapM_cons, hl, ih fun l hl => hfits l (List.mem_cons_of_mem _ hl)]
    rfl

end Layer

/-- The last single value of a key, found in the layers or among their key paths. -/
theorem lastSome?_filterMap_pair? {α : Type} (k : Key α) (layers : List Layer) :
    lastSome? k.inPair? (layers.filterMap Layer.pair?) = lastSome? k.inValue? layers := by
  induction layers with
  | nil => rfl
  | cons l layers ih =>
    rw [lastSome?_cons, List.filterMap_cons, ← ih, Key.inValue?]
    cases l.pair? with
    | none => rw [Option.bind_none, Option.or_none]
    | some e => rw [lastSome?_cons, Option.bind_some]

/-- Single values that fit can be collected, and what is collected gives a key the last of them. -/
theorem exists_overrides {files : FileView} {layers : List Layer}
    (hfits : ∀ l ∈ layers, l.Fits files) :
    ∃ vs, Layer.overrides layers = .ok vs ∧ (∀ e ∈ vs, SetsKey e) ∧
      ∀ {α : Type} (k : Key α), lastSome? k.inPair? vs = lastSome? k.inValue? layers := by
  have hpairs : ∀ e ∈ layers.filterMap Layer.pair?, SetsKey e := by
    intro e he
    obtain ⟨l, hl, hpair⟩ := List.mem_filterMap.mp he
    exact (hfits l hl).setsKey hpair
  refine ⟨(layers.filterMap Layer.pair?).foldl (fun vs (p, v) => Layer.record p v vs) [],
    ?_, fun e he => ?_, fun k => ?_⟩
  · rw [Layer.overrides, Layer.mapM_override? hfits]
    simp only [bind, Except.bind, pure, Except.pure, List.filterMap_map, Function.id_comp]
  · rcases Layer.mem_foldl_record he with he | he
    · exact hpairs e he
    · cases he
  · have hnil : (([] : List (KeyPath × Scalar)).map Prod.fst).Nodup := List.nodup_nil
    rw [Layer.lastSome?_foldl_record k hpairs hnil, lastSome?_nil, Option.or_none,
      lastSome?_filterMap_pair?]

/-- Single values that are set over a tree give a key the last of them. -/
theorem Holds.foldl_setPath {vs : List (KeyPath × Scalar)} (hfits : ∀ e ∈ vs, SetsKey e)
    {α : Type} {k : Key α} {a : α} {root : Node} (h : Holds root k a) :
    Holds (vs.foldl (fun root (p, v) => root.setPath p (.scalar none v)) root) k
      ((lastSome? k.inPair? vs).getD a) := by
  induction vs generalizing root a with
  | nil => exact h
  | cons e vs ih =>
    obtain ⟨p, x⟩ := e
    obtain ⟨β, l, b, rfl, hread⟩ := hfits _ List.mem_cons_self
    rw [List.foldl_cons, getD_lastSome?_cons]
    exact ih (fun e he => hfits e (List.mem_cons_of_mem _ he)) (h.setPath hread none)

/-! ## Loading -/

/-- Layers that fit are loaded, and give each key the value that is settled for it. -/
theorem load_eq_ofLayers {files : FileView} {layers : List Layer}
    (hfits : ∀ l ∈ layers, l.Fits files) : load files layers = .ok (ofLayers files layers) := by
  obtain ⟨vs, hvs, hsets, hlast⟩ := exists_overrides hfits
  obtain ⟨merged, hmerged, hholds⟩ := exists_mergeFiles hfits standardNode
  rw [load, hvs]
  simp only [bind, Except.bind, hmerged]
  refine ofNode_of_holds fun k => ?_
  have h := Holds.foldl_setPath hsets (hholds (holds_standardNode k))
  rwa [hlast, ← Option.getD_or, ← Key.settled, ← Key.get_ofLayers] at h

/-! ## The order of layers -/

theorem mergeFiles_filter (files : FileView) (layers : List Layer) (root : Node) :
    Layer.mergeFiles files (layers.filter Layer.isFile) root =
      Layer.mergeFiles files layers root := by
  induction layers generalizing root with
  | nil => rfl
  | cons l layers ih =>
    cases l with
    | file path required =>
      rw [List.filter_cons_of_pos rfl, Layer.mergeFiles, Layer.mergeFiles]
      simp only [ih]
    | value key x =>
      rw [List.filter_cons_of_neg (by simp [Layer.isFile]), Layer.mergeFiles, ih]

/-- A layer in front of others finds its value and theirs. -/
theorem map_filterMap_cons (found : Except Error (List (Option (KeyPath × Scalar))))
    (e : Option (KeyPath × Scalar)) :
    (found >>= fun es => pure (e :: es)).map (List.filterMap id) =
      (found.map (List.filterMap id)).map fun es => e.toList ++ es := by
  cases found with
  | error => rfl
  | ok es => cases e <;> rfl

theorem overrides_filter (layers : List Layer) :
    Layer.overrides (layers.filter fun l => !l.isFile) = Layer.overrides layers := by
  have hfound : ((layers.filter fun l => !l.isFile).mapM Layer.override?).map
      (List.filterMap id) = (layers.mapM Layer.override?).map (List.filterMap id) := by
    induction layers with
    | nil => rfl
    | cons l layers ih =>
      cases l with
      | file path required =>
        rw [List.filter_cons_of_neg (by simp [Layer.isFile]), ih, List.mapM_cons]
        cases layers.mapM Layer.override? <;> rfl
      | value key x =>
        rw [List.filter_cons_of_pos rfl, List.mapM_cons, List.mapM_cons]
        cases Layer.override? (.value key x) with
        | error => rfl
        | ok e =>
          refine (map_filterMap_cons _ e).trans ?_
          rw [ih]
          exact (map_filterMap_cons _ e).symm
  have hfold (ls : List Layer) : Layer.overrides ls =
      ((ls.mapM Layer.override?).map (List.filterMap id)).map fun es =>
        es.foldl (fun vs (p, v) => Layer.record p v vs) [] := by
    rw [Layer.overrides]
    cases ls.mapM Layer.override? <;> rfl
  rw [hfold, hfold, hfound]

/-- Loading looks at the order of the files and at that of the single values, not at the order
between the two. -/
theorem load_eq_of_filter_eq (files : FileView) {layers layers' : List Layer}
    (hfiles : layers'.filter Layer.isFile = layers.filter Layer.isFile)
    (hvalues : (layers'.filter fun l => !l.isFile) = layers.filter fun l => !l.isFile) :
    load files layers' = load files layers := by
  have hmerge : Layer.mergeFiles files layers' = Layer.mergeFiles files layers := by
    funext root
    rw [← mergeFiles_filter, hfiles, mergeFiles_filter]
  rw [load, load, ← overrides_filter layers', hvalues, overrides_filter, hmerge]

/-! ## The terminal -/

/-- The value that the options of a command line give to a key. -/
def Key.chosen? {α : Type} : Key α → Options → Option α
  | .tabSize, o => o.tabSize
  | _, _ => none

/-- The value of a key in a terminal: what the options choose, else what the file that they name
says, else what the file of the project says, else the standard value. -/
def Key.inTerminal {α : Type} (k : Key α) (files : FileView) (o : Options) : α :=
  (((k.chosen? o).or (o.config.bind (k.atPath? files))).or
    (k.atPath? files Surroundings.projectFile)).getD (k.get .standard)

/-- The option for the tab size is a single value for its key. -/
theorem Key.inValue?_tabSize {α : Type} (k : Key α) {o : Options} {n : Nat}
    (h : o.tabSize = some n) :
    k.inValue? (.value "folding.tab_size" (.integer n)) = k.chosen? o := by
  have htext : KeyPath.parse? "folding.tab_size" = some Key.tabSize.path := Key.tabSize.parse?_text
  rw [inValue?, Layer.pair?, htext, Option.map_some, Option.bind_some, inPair?]
  cases k
  case tabSize => exact h.symm
  all_goals rfl

theorem Key.settled_terminal {α : Type} (k : Key α) (files : FileView) (o : Options) :
    k.settled files (Terminal.layers o) = k.inTerminal files o := by
  have hfile (path : String) (required : Bool) : k.inValue? (.file path required) = none := rfl
  have hvalues : lastSome? k.inValue? (Terminal.layers o) = k.chosen? o := by
    cases htab : o.tabSize with
    | none =>
      have hnone : k.chosen? o = none := by cases k <;> first | exact htab | rfl
      cases hconfig : o.config <;>
        simp [Terminal.layers, htab, hconfig, hnone, lastSome?_cons, lastSome?_nil, hfile]
    | some n =>
      cases hconfig : o.config <;>
        simp [Terminal.layers, htab, hconfig, lastSome?_cons, lastSome?_nil, hfile,
          k.inValue?_tabSize htab]
  have hfiles : lastSome? (k.inFile? files) (Terminal.layers o) =
      (o.config.bind (k.atPath? files)).or (k.atPath? files Surroundings.projectFile) := by
    cases hconfig : o.config <;> cases htab : o.tabSize <;>
      simp [Terminal.layers, htab, hconfig, lastSome?_cons, lastSome?_nil, inFile?]
  rw [settled, hvalues, hfiles, inTerminal, Option.or_assoc]

/-- The option for the tab size fits, whatever number it gives. -/
theorem fits_terminal {files : FileView} {o : Options}
    (hproject : (Layer.file Surroundings.projectFile false).Fits files)
    (hconfig : ∀ path ∈ o.config, (Layer.file path true).Fits files) :
    ∀ l ∈ Terminal.layers o, l.Fits files := by
  intro l hl
  rcases List.mem_cons.mp hl with rfl | hl
  · exact hproject
  · rcases List.mem_append.mp hl with hl | hl
    · obtain ⟨path, hpath, rfl⟩ := Option.map_eq_some_iff.mp (Option.mem_toList.mp hl)
      exact hconfig path hpath
    · obtain ⟨i, hi, rfl⟩ := Option.map_eq_some_iff.mp (Option.mem_toList.mp hl)
      obtain ⟨n, -, hn⟩ := Option.bind_eq_some_iff.mp hi
      cases hn
      exact .value .tabSize Key.tabSize.parse?_text (Key.read?_natCast n)

/-! ## Precedence -/

/-- **Precedence.** Layers that fit are always loaded. Each setting is the last single value that is
    set for its key; else the value in the last file that has one; else the standard value. So the
    order between files and single values does not matter. In a terminal the option for the tab
    size goes over the file that is asked for, and that file over the file of the project, key by
    key. -/
theorem load_exact {files : FileView} {layers : List Layer} (hfits : ∀ l ∈ layers, l.Fits files) :
    (∃ s, load files layers = .ok s ∧
      ∀ {α : Type} (k : Key α), k.get s = k.settled files layers) ∧
    (∀ layers' : List Layer, layers'.filter Layer.isFile = layers.filter Layer.isFile →
      (layers'.filter fun l => !l.isFile) = (layers.filter fun l => !l.isFile) →
      load files layers' = load files layers) ∧
    ∀ (w : Surroundings) (o : Options),
      (Layer.file Surroundings.projectFile false).Fits w.files →
      (∀ path ∈ o.config, (Layer.file path true).Fits w.files) →
      ∃ s, Terminal.settings w o = .ok s ∧
        ∀ {α : Type} (k : Key α), k.get s = k.inTerminal w.files o := by
  refine ⟨?settled, ?order, ?terminal⟩
  case settled =>
    exact ⟨_, load_eq_ofLayers hfits, fun k => k.get_ofLayers files layers⟩
  case order =>
    intro layers' hfiles hvalues
    exact load_eq_of_filter_eq files hfiles hvalues
  case terminal =>
    intro w o hproject hconfig
    refine ⟨ofLayers w.files (Terminal.layers o), ?_, fun k => ?_⟩
    · rw [Terminal.settings, load_eq_ofLayers (fits_terminal hproject hconfig)]
    · rw [k.get_ofLayers, k.settled_terminal]

/-- Two files of settings, and nothing else. -/
def twoFiles : FileView := fun path =>
  if path = "base" then .ok "[folding]\ntab_size = 2\nindentation = false\n".toUTF8
  else if path = "team" then
    .ok "folding.indentation = true\nowner = 'x'\n[output]\nformat = 'JSON'\n".toUTF8
  else .error .missing

/-- Files and single values in turn; one file is not there. -/
def mixedLayers : List Layer := [
  .value "folding.tab_size" (.integer 8), .file "base" true,
  .value "Folding.Tab_Size" (.integer 3), .file "absent" false, .file "team" false,
  .value "diagnostics.lexical" (.boolean false)]

theorem readFile_absent : Layer.readFile twoFiles "absent" = .error (.noFile "absent") := by
  have hending : ∀ text ∈ ["base", "team"], plainPath "absent" ++ ".toml" ≠ text := by
    intro text htext heq
    have hlen := congrArg String.length heq
    rw [String.length_append] at hlen
    have hfive : ".toml".length = 5 := by decide
    have hfour : text.length = 4 := by
      rcases List.mem_pair.mp htext with rfl | rfl <;> decide
    omega
  have hnone : twoFiles.isFile (plainPath "absent" ++ ".toml") = false := by
    rw [FileView.isFile, twoFiles, if_neg (hending _ (by simp)), if_neg (hending _ (by simp))]
  have hfind : Layer.find? twoFiles "absent" = none := by
    rw [Layer.find?]
    rcases candidates_cases "absent" with hpaths | hpaths <;> rw [hpaths]
    · rfl
    · rw [List.find?_cons_of_neg (by decide), List.find?_cons_of_neg (by simp [hnone]),
        List.find?_nil]
  rw [Layer.readFile, hfind]

/-- The table of the first of the two files. -/
def baseTable : Toml.Table :=
  [("folding", .table [("tab_size", .integer 2), ("indentation", .boolean false)])]

/-- The table of the second of the two files. -/
def teamTable : Toml.Table :=
  [("folding", .table [("indentation", .boolean true)]), ("owner", .text "x"),
    ("output", .table [("format", .text "JSON")])]

theorem fitsFile_baseTable : ∀ e ∈ baseTable, FitsFile e := by
  have hfields : ∀ e ∈ [("tab_size", Toml.Value.integer 2), ("indentation", .boolean false)],
      FitsSection .folding e :=
    List.forall_mem_cons.mpr ⟨FitsSection.setting Key.tabSize (by decide) rfl,
      List.forall_mem_singleton.mpr (FitsSection.setting Key.indentation (by decide) rfl)⟩
  exact List.forall_mem_singleton.mpr (.sect .folding (by decide) hfields)

theorem fitsFile_teamTable : ∀ e ∈ teamTable, FitsFile e := by
  have hfolding : ∀ e ∈ [("indentation", Toml.Value.boolean true)], FitsSection .folding e :=
    List.forall_mem_singleton.mpr (FitsSection.setting Key.indentation (by decide) rfl)
  have howner : FitsFile ("owner", .text "x") := .other fun s => by cases s <;> decide
  have houtput : ∀ e ∈ [("format", Toml.Value.text "JSON")], FitsSection .output e :=
    List.forall_mem_singleton.mpr (FitsSection.setting Key.format (by decide) rfl)
  exact List.forall_mem_cons.mpr ⟨.sect .folding (by decide) hfolding,
    List.forall_mem_cons.mpr ⟨howner, List.forall_mem_singleton.mpr
      (.sect .output (by decide) houtput)⟩⟩

theorem parse?_base : Toml.parse? "[folding]\ntab_size = 2\nindentation = false\n" =
    some baseTable := by
  cbv

theorem parse?_team : Toml.parse?
    "folding.indentation = true\nowner = 'x'\n[output]\nformat = 'JSON'\n" = some teamTable := by
  cbv

theorem fits_mixedLayers : ∀ l ∈ mixedLayers, l.Fits twoFiles := by
  have hbase : (Layer.file "base" true).Fits twoFiles :=
    .file (readFile_of_eq_ok rfl) parse?_base fitsFile_baseTable
  have hteam : (Layer.file "team" false).Fits twoFiles :=
    .file (readFile_of_eq_ok rfl) parse?_team fitsFile_teamTable
  have hlexical : (Layer.value "diagnostics.lexical" (.boolean false)).Fits twoFiles :=
    .value .lexical (by decide) rfl
  have hfirst : (Layer.value "folding.tab_size" (.integer 8)).Fits twoFiles :=
    .value .tabSize (by decide) (Key.read?_natCast 8)
  have hlast : (Layer.value "Folding.Tab_Size" (.integer 3)).Fits twoFiles :=
    .value .tabSize (by decide) (Key.read?_natCast 3)
  simp [mixedLayers, hbase, hteam, hlexical, hfirst, hlast, Layer.Fits.missing readFile_absent]

theorem settled_mixedLayers {α : Type} (k : Key α) : k.settled twoFiles mixedLayers =
    ((lastSome? k.inValue? mixedLayers).or
      ((k.inTable? teamTable).or (k.inTable? baseTable))).getD (k.get .standard) := by
  have hbase : k.atPath? twoFiles "base" = k.inTable? baseTable :=
    k.atPath?_of_parse? (readFile_of_eq_ok rfl) parse?_base
  have hteam : k.atPath? twoFiles "team" = k.inTable? teamTable :=
    k.atPath?_of_parse? (readFile_of_eq_ok rfl) parse?_team
  have hfiles : lastSome? (k.inFile? twoFiles) mixedLayers =
      (k.inTable? teamTable).or (k.inTable? baseTable) := by
    simp [mixedLayers, lastSome?_cons, lastSome?_nil, Key.inFile?, hbase, hteam,
      k.atPath?_of_error readFile_absent]
  rw [Key.settled, hfiles]

theorem load_exact_mixedLayers : (∀ l ∈ mixedLayers, l.Fits twoFiles) ∧
    load twoFiles mixedLayers = .ok ⟨⟨3, true, true⟩, ⟨false, true⟩, .json⟩ := by
  refine ⟨fits_mixedLayers, ?_⟩
  obtain ⟨⟨⟨⟨t, i, r⟩, ⟨l, u⟩, f⟩, hs, hget⟩, -⟩ := load_exact fits_mixedLayers
  have ht : t = 3 := (hget .tabSize).trans ((settled_mixedLayers _).trans (by decide))
  have hi : i = true := (hget .indentation).trans ((settled_mixedLayers _).trans (by decide))
  have hr : r = true := (hget .regionMarkers).trans ((settled_mixedLayers _).trans (by decide))
  have hl : l = false := (hget .lexical).trans ((settled_mixedLayers _).trans (by decide))
  have hu : u = true := (hget .structural).trans ((settled_mixedLayers _).trans (by decide))
  have hf : f = .json := (hget .format).trans ((settled_mixedLayers _).trans (by decide))
  rw [hs, ht, hi, hr, hl, hu, hf]

end ContractScan.Settings

import ContractScan.Command
import ContractScan.Proofs.QuotedText
import ContractScan.Proofs.Rows
import ContractScan.Proofs.Tiling
import ContractScan.Proofs.Yields

/-
  The table of tokens read back. A line of the table tells the place, the kind and the text of its
  token, whatever the widths of the others are (`readRow?_tableLine`): the place ends with the first
  blank, the kind stands in a column of its own, and what is left is quoted. The table has one such
  line for each token that it shows, and the texts of all tokens put together are the source
  (`table_exact`).
-/

namespace ContractScan.Report

/-! ## Reading a line -/

/-- What a line of the table tells of a token. -/
structure Row where
  line : Nat
  column : Nat
  kind : TokenKind
  lexeme : String
deriving DecidableEq

/-- The row of a token: its place as people count it, its kind and its text. -/
def Row.ofToken (ix : LineIndex) (t : Token) : Row :=
  ⟨(ix.position t.start).line + 1, (ix.position t.start).column + 1, t.kind, t.lexeme⟩

/-- A number at the start of a text, and what follows it. -/
def readNumber? (cs : List Char) : Option (Nat × List Char) :=
  if cs.takeWhile Char.isDigit = [] then none
  else some (Nat.ofDigitChars 10 (cs.takeWhile Char.isDigit) 0, cs.dropWhile Char.isDigit)

/-- The kind whose name stands in the column of kinds, and what follows the column. -/
def readKind? (cs : List Char) : Option (TokenKind × List Char) :=
  (TokenKind.ofName? (String.ofList ((cs.take kindWidth).takeWhile (· ≠ ' ')))).map
    fun k => (k, cs.drop kindWidth)

/-- The line and the column at the start of a text, and what follows the blanks behind them. -/
def readPlace? (cs : List Char) : Option ((Nat × Nat) × List Char) := do
  let (line, cs) ← readNumber? cs
  let cs ← Text.afterWord? ":" cs
  let (column, cs) ← readNumber? cs
  return ((line, column), cs.dropWhile (· = ' '))

/-- The row that a line of the table writes, with its line feed. -/
def readRow? (cs : List Char) : Option Row := do
  let ((line, column), cs) ← readPlace? cs
  let (kind, cs) ← readKind? cs
  let cs ← Text.afterWord? "  " cs
  let (lexeme, cs) ← Text.Quoted.decode cs
  if cs = ['\n'] then some ⟨line, column, kind, String.ofList lexeme⟩ else none

/-! ## The fields of a line -/

theorem afterWord?_append (word : String) (r : List Char) :
    Text.afterWord? word (word.toList ++ r) = some r := by
  rw [Text.afterWord?, if_pos (List.isPrefixOf_iff_prefix.mpr (List.prefix_append _ r)),
    ← String.length_toList, List.drop_left]

/-- A number is read back where no other digit follows it. -/
theorem readNumber?_toString (n : Nat) {r : List Char} (h : ∀ c ∈ r.head?, c.isDigit = false) :
    readNumber? ((toString n).toList ++ r) = some (n, r) := by
  have hdigits : ∀ c ∈ Nat.toDigits 10 n, c.isDigit := fun c hc =>
    Nat.isDigit_of_mem_toDigits (by decide) (by decide) hc
  have htake : r.takeWhile Char.isDigit = [] := by
    cases r with
    | nil => rfl
    | cons c r => rw [List.takeWhile_cons_of_neg (by simp [h c rfl])]
  have hdrop : r.dropWhile Char.isDigit = r := by
    cases r with
    | nil => rfl
    | cons c r => rw [List.dropWhile_cons_of_neg (by simp [h c rfl])]
  rw [Nat.toString_eq_repr, Nat.repr_eq_ofList_toDigits, String.toList_ofList, readNumber?,
    List.takeWhile_append_of_pos hdigits, List.dropWhile_append_of_pos hdigits, htake, hdrop,
    List.append_nil, if_neg Nat.toDigits_ne_nil, Nat.ofDigitChars_ten_toDigits]

theorem toList_padTo (width : Nat) (s : String) :
    (padTo width s).toList = s.toList ++ List.replicate (width - s.length) ' ' := by
  rw [padTo, String.toList_append, String.toList_ofList]

theorem length_padTo {width : Nat} {s : String} (h : s.length ≤ width) :
    (padTo width s).toList.length = width := by
  rw [toList_padTo, List.length_append, List.length_replicate, String.length_toList]
  omega

/-- A kind is read back from its column. -/
theorem readKind?_padTo (k : TokenKind) (r : List Char) :
    readKind? ((padTo kindWidth k.name).toList ++ r) = some (k, r) := by
  have hlen := length_padTo (length_name_le_kindWidth k)
  have hname : k.name.toList.all (· ≠ ' ') := by cases k <;> rfl
  have hcolumn : ((padTo kindWidth k.name).toList.takeWhile (· ≠ ' ')) = k.name.toList := by
    rw [toList_padTo, List.takeWhile_append_of_pos (List.all_eq_true.mp hname)]
    cases kindWidth - k.name.length <;> simp [List.replicate_succ]
  rw [readKind?, List.take_left' hlen, List.drop_left' hlen, hcolumn, String.ofList_toList,
    TokenKind.ofName?_name]
  rfl

/-- A place is read back, and the blanks behind it are not part of what follows. -/
theorem readPlace?_padTo (width : Nat) (ix : LineIndex) (t : Token) (r : List Char) :
    readPlace? ((padTo width (place ix t)).toList ++ (' ' :: r)) =
      some (((ix.position t.start).line + 1, (ix.position t.start).column + 1),
        r.dropWhile (· = ' ')) := by
  let line := toString ((ix.position t.start).line + 1)
  let column := toString ((ix.position t.start).column + 1)
  let blanks := List.replicate (width - (place ix t).length + 1) ' '
  have hplace : (place ix t).toList = line.toList ++ (":".toList ++ column.toList) := by
    rw [place, String.toList_append, String.toList_append, List.append_assoc]
    rfl
  have hsplit : (padTo width (place ix t)).toList ++ (' ' :: r) =
      line.toList ++ (":".toList ++ (column.toList ++ (blanks ++ r))) := by
    rw [toList_padTo, hplace]
    simp only [blanks, List.replicate_succ', List.append_assoc, List.singleton_append]
  have hcolon : ∀ c ∈ (":".toList ++ (column.toList ++ (blanks ++ r))).head?,
      c.isDigit = false := by
    intro c hc
    cases hc
    rfl
  have hblank : ∀ c ∈ (blanks ++ r).head?, c.isDigit = false := by
    intro c hc
    cases hc
    rfl
  have hdrop : (blanks ++ r).dropWhile (· = ' ') = r.dropWhile (· = ' ') :=
    List.dropWhile_append_of_pos (by simp [blanks])
  rw [readPlace?, hsplit, readNumber?_toString _ hcolon]
  simp only [Option.bind_eq_bind, Option.bind_some, afterWord?_append]
  rw [readNumber?_toString _ hblank]
  simp only [Option.bind_some, hdrop]
  rfl

/-- The name of a kind does not start with a blank. -/
theorem dropWhile_padTo_name (k : TokenKind) (r : List Char) :
    ((padTo kindWidth k.name).toList ++ r).dropWhile (· = ' ') =
      (padTo kindWidth k.name).toList ++ r := by
  cases k <;> rfl

/-- A line of the table is read back as the row of its token, however wide the places are. -/
theorem readRow?_tableLine (width : Nat) (ix : LineIndex) (t : Token) :
    readRow? (tableLine width ix t).toList = some (Row.ofToken ix t) := by
  have hfields : (tableLine width ix t).toList = (padTo width (place ix t)).toList ++
      (' ' :: ' ' :: ((padTo kindWidth t.kind.name).toList ++
        ("  ".toList ++ ((Text.Quoted.encode t.lexeme).toList ++ ['\n'])))) := by
    simp [tableLine, String.toList_append]
  rw [readRow?, hfields, readPlace?_padTo, List.dropWhile_cons_of_pos (by decide),
    dropWhile_padTo_name]
  simp only [Option.bind_eq_bind, Option.bind_some, readKind?_padTo, afterWord?_append,
    Text.Quoted.decode_encode_append, if_true, String.ofList_toList]
  rfl

/-! ## The lines of the table -/

/-- A line of the table without its line feed. -/
def tableRow (width : Nat) (ix : LineIndex) (t : Token) : String :=
  padTo width (place ix t) ++ "  " ++ padTo kindWidth t.kind.name ++ "  " ++
    Text.Quoted.encode t.lexeme

theorem oneLine_padTo {width : Nat} {s : String} (h : OneLine s) : OneLine (padTo width s) := by
  rw [padTo, oneLine_append, oneLine_ofList]
  refine ⟨h, fun c hc => ?_⟩
  rw [List.eq_of_mem_replicate hc]
  rfl

theorem oneLine_place (ix : LineIndex) (t : Token) : OneLine (place ix t) := by
  simp only [place, oneLine_append]
  exact ⟨⟨oneLine_toString _, by decide⟩, oneLine_toString _⟩

theorem oneLine_name (k : TokenKind) : OneLine k.name := by cases k <;> decide

/-- A token takes one line of the table, also where its text has several. -/
theorem oneLine_tableRow (width : Nat) (ix : LineIndex) (t : Token) :
    OneLine (tableRow width ix t) := by
  have hgap : OneLine "  " := by decide
  simp only [tableRow, oneLine_append]
  exact ⟨⟨⟨⟨oneLine_padTo (oneLine_place ix t), hgap⟩, oneLine_padTo (oneLine_name t.kind)⟩, hgap⟩,
    oneLine_encode t.lexeme⟩

/-- The table has one line for each token, and ends with a line feed. -/
theorem cutIntoLines_table (ix : LineIndex) (ts : List Token) :
    CutIntoLines (table ix ts).toList
      ((ts.map fun t => (tableLine (placeWidth ix ts) ix t).toList) ++ [[]]) := by
  have hrows : ∀ r ∈ ts.map (tableRow (placeWidth ix ts) ix), OneLine r := by
    intro r hr
    obtain ⟨t, -, rfl⟩ := List.mem_map.mp hr
    exact oneLine_tableRow _ ix t
  have hcut := cutIntoLines_rows hrows
  rw [ofRows, List.map_map, List.map_map] at hcut
  exact hcut

/-! ## Reading the table -/

theorem selected_ideal (text : String) (o : ScanOptions) (whitespace : Bool) :
    Command.selected (.ideal text o) whitespace =
      (tokenize text).filter fun t => whitespace || t.kind ≠ .whitespace := by
  cases whitespace with
  | true => exact (List.filter_true _).symm
  | false => rfl

/-- The table loses nothing. It has one line for each token, or for each that is no white space, in
their order; each line tells the place, the kind and the text of its token; and where white space
is shown the texts of the lines are the source. -/
theorem table_exact (source : SourceText) (settings : Settings) (whitespace : Bool) :
    Scan.Yields source.text settings.folding.scanOptions fun scan =>
      let shown := (tokenize source.text).filter fun t => whitespace || t.kind ≠ .whitespace
      ∃ lines, CutIntoLines (Command.tokens scan .table whitespace).toList (lines ++ [[]]) ∧
        lines.map readRow? = shown.map (fun t => some (Row.ofToken scan.index t)) ∧
        (whitespace → String.join ((lines.filterMap readRow?).map Row.lexeme) = source.text) := by
  refine .of_ideal ?_
  intro shown
  let ix := LineIndex.ofText source.text
  let line := fun t => (tableLine (placeWidth ix shown) ix t).toList
  have hread : (readRow? ∘ line) = fun t => some (Row.ofToken ix t) :=
    funext fun t => readRow?_tableLine _ ix t
  refine ⟨shown.map line, ?_, ?_, fun hall => ?_⟩
  · rw [Command.tokens, selected_ideal]
    exact cutIntoLines_table ix shown
  · rw [List.map_map, hread]
    rfl
  · have hshown : shown = tokenize source.text := by
      simp only [shown, hall, Bool.true_or, List.filter_true]
    have hrows : (shown.map line).filterMap readRow? = shown.map (Row.ofToken ix) := by
      rw [List.filterMap_map, hread, List.filterMap_eq_map']
    rw [hrows, List.map_map, hshown]
    exact detokenize_tokenize source.text

end ContractScan.Report

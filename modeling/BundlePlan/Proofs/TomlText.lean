import BundlePlan.Descriptor.Render
import BundlePlan.Proofs.TomlTokens
import BundlePlan.Toml.Document

/-! Descriptors as TOML. The text of a descriptor is read back as a table with its fields, and so no
two descriptors have the same text. -/
namespace BundlePlan

namespace Toml

def tokenOf (value : String) : Token := .text value (style value.toList).isMultiline

/-- The tokens of a line for an element. -/
def elementTokens (value : String) : List Token :=
  [.blank (List.replicate 4 ' '), tokenOf value, .comma, .newline]

def contentTokens : Content → List Token
  | .text value => [tokenOf value]
  | .texts [] => [.openBracket, .closeBracket]
  | .texts [value] => [.openBracket, tokenOf value, .closeBracket]
  | .texts values => .openBracket :: .newline :: (values.flatMap elementTokens ++ [.closeBracket])

def lineTokens (entry : String × Content) : List Token :=
  [.word entry.1.toList, .blank [' '], .equals, .blank [' ']] ++ contentTokens entry.2 ++ [.newline]

/-- Whether a key can be written without quotes. -/
def Bare (key : String) : Prop := key.toList ≠ [] ∧ key.toList.all isBareKeyChar = true

instance : DecidablePred Bare := fun _ => inferInstanceAs (Decidable (_ ∧ _))

section Lexing

variable {rest : List Char} {others : List Token}

private theorem tokens_text (value : String) (closed : Closed rest)
    (read : tokens rest = .ok others) :
    tokens (text value ++ rest) = .ok (tokenOf value :: others) := by
  have styled := @tokens_styled value.toList _ _ closed read
  rwa [String.ofList_toList] at styled

private theorem head_text (value : String) (rest : List Char) :
    ∀ c ∈ (text value ++ rest).head?, isBlank c = false := by
  unfold text
  cases style value.toList with
  | basic => simp [styled, isBlank]
  | literal => simp [styled, isBlank]
  | basicLines => simp [styled, opening, isBlank]
  | literalLines => simp [styled, opening, isBlank]

private theorem tokens_spaces (more : Nat) (ends : ∀ c ∈ rest.head?, isBlank c = false)
    (read : tokens rest = .ok others) :
    tokens (List.replicate (more + 1) ' ' ++ rest) =
      .ok (.blank (List.replicate (more + 1) ' ') :: others) := by
  have blank : ∀ c ∈ List.replicate more ' ', isBlank c = true := fun c member => by
    rw [List.eq_of_mem_replicate member]
    rfl
  have first : firstToken ' ' (List.replicate more ' ' ++ rest) =
      .ok (.blank (List.replicate (more + 1) ' '), rest) := by
    rw [firstToken, if_pos (by decide), Text.takeWhile_append blank ends,
      Text.dropWhile_append blank ends]
    · rfl
    all_goals simp
  exact tokens_cons first read

private theorem isWordChar_of_bare {c : Char} (bare : isBareKeyChar c = true) :
    isWordChar c = true := by
  unfold isWordChar
  rw [Bool.not_eq_true', List.contains_eq_mem, decide_eq_false_iff_not]
  intro special
  simp only [List.mem_cons, List.not_mem_nil, or_false] at special
  rcases special with rfl | rfl | rfl | rfl | rfl | rfl | rfl | rfl | rfl | rfl | rfl | rfl <;>
    exact absurd bare (by decide)

private theorem tokens_key {key : String} (bare : Bare key)
    (ends : ∀ c ∈ rest.head?, isWordChar c = false) (read : tokens rest = .ok others) :
    tokens (key.toList ++ rest) = .ok (.word key.toList :: others) := by
  obtain ⟨nonempty, allowed⟩ := bare
  rw [List.all_eq_true] at allowed
  obtain ⟨c, more, chars⟩ := List.exists_cons_of_ne_nil nonempty
  rw [chars] at allowed ⊢
  obtain ⟨here, later⟩ := List.forall_mem_cons.1 allowed
  have word : ∀ c ∈ more, isWordChar c = true := fun c member => isWordChar_of_bare (later c member)
  have unlike : ∀ {d : Char}, isBareKeyChar d = false → c ≠ d := by
    rintro _ special rfl
    rw [here] at special
    cases special
  have first : firstToken c (more ++ rest) = .ok (.word (c :: more), rest) := by
    rw [firstToken, if_neg, Text.takeWhile_append word ends, Text.dropWhile_append word ends]
    · simp [isBlank, unlike (show isBareKeyChar ' ' = false by decide),
        unlike (show isBareKeyChar '\t' = false by decide)]
    iterate 12 exact unlike (by decide)
    all_goals exact fun _ same => absurd same (unlike (by decide))
  exact tokens_cons first read

private theorem tokens_elements (values : List String) (read : tokens rest = .ok others) :
    tokens (values.flatMap elementLine ++ rest) =
      .ok (values.flatMap elementTokens ++ others) := by
  induction values with
  | nil => exact read
  | cons value more ih =>
    have comma : tokens (',' :: '\n' :: (more.flatMap elementLine ++ rest)) =
        .ok (.comma :: .newline :: (more.flatMap elementTokens ++ others)) :=
      tokens_cons rfl (tokens_cons rfl ih)
    have element := tokens_text value (closed_cons (by decide) _) comma
    have indented := tokens_spaces 3 (head_text value _) element
    simpa [elementLine, elementTokens] using indented

private theorem tokens_content (given : Content) (closed : Closed rest)
    (read : tokens rest = .ok others) :
    tokens (content given ++ rest) = .ok (contentTokens given ++ others) := by
  have bracket : tokens (']' :: rest) = .ok (.closeBracket :: others) := tokens_cons rfl read
  match given with
  | .text value => exact tokens_text value closed read
  | .texts [] => exact tokens_cons rfl bracket
  | .texts [value] =>
    have inside := tokens_text value (closed_cons (by decide) _) bracket
    have whole : tokens ('[' :: (text value ++ ']' :: rest)) = _ := tokens_cons rfl inside
    simpa [content, texts, contentTokens] using whole
  | .texts (first :: second :: more) =>
    have inside := tokens_elements (first :: second :: more) bracket
    have whole : tokens ('[' :: '\n' :: _) = _ := tokens_cons rfl (tokens_cons rfl inside)
    simpa [content, texts, contentTokens] using whole

private theorem head_content (given : Content) (rest : List Char) :
    ∀ c ∈ (content given ++ rest).head?, isBlank c = false := by
  match given with
  | .text value => exact head_text value rest
  | .texts [] => simp [content, texts, isBlank]
  | .texts [value] => simp [content, texts, isBlank]
  | .texts (first :: second :: more) => simp [content, texts, isBlank]

private theorem tokens_line {entry : String × Content} (bare : Bare entry.1)
    (read : tokens rest = .ok others) :
    tokens (line entry ++ rest) = .ok (lineTokens entry ++ others) := by
  have ended : tokens ('\n' :: rest) = .ok (.newline :: others) := tokens_cons rfl read
  have value := tokens_content entry.2 (closed_cons (by decide) _) ended
  have spaced := tokens_spaces 0 (head_content entry.2 _) value
  have equals : tokens ('=' :: _) = _ := tokens_cons rfl spaced
  have assigned := tokens_spaces 0 (by simp [isBlank]) equals
  have whole := tokens_key bare (by simp [isWordChar]) assigned
  simpa [line, lineTokens] using whole

private theorem tokens_document {entries : List (String × Content)}
    (bare : ∀ entry ∈ entries, Bare entry.1) :
    tokens (document entries) = .ok (entries.flatMap lineTokens) := by
  induction entries with
  | nil => rw [document, List.flatMap_nil, tokens, List.flatMap_nil]
  | cons entry more ih =>
    obtain ⟨here, later⟩ := List.forall_mem_cons.1 bare
    exact tokens_line here (ih later)

end Lexing

section Reading

variable {rest : List Token}

def valueOf : Content → Value
  | .text value => .string value
  | .texts values => .array (values.map .string)

private theorem value_text (depth : Nat) (text : String) (rest : List Token) :
    value depth (tokenOf text :: rest) = .ok (.string text, rest) := by
  cases depth <;> rfl

section Items

variable {α : Type} {item : List Token → Except Fault (α × List Token)} {close token : Token}
  {tokens rest after : List Token} {element : α} {left : Nat}

private theorem items_close (ends : skipLayout tokens = close :: rest) :
    items item close (left + 1) tokens = .ok ([], rest) := by
  rw [items, ends]
  exact if_pos rfl

private theorem items_last (begins : skipLayout tokens = token :: rest) (opens : token ≠ close)
    (first : item (token :: rest) = .ok (element, close :: after))
    (visible : skipLayout (close :: after) = close :: after) :
    items item close (left + 1) tokens = .ok ([element], after) := by
  rw [items, begins]
  simp only [if_neg opens, first, bind, Except.bind, visible]
  rfl

private theorem items_more (begins : skipLayout tokens = token :: rest) (opens : token ≠ close)
    (first : item (token :: rest) = .ok (element, .comma :: after)) (comma : .comma ≠ close)
    {others : List α} {last : List Token}
    (further : items item close left after = .ok (others, last)) :
    items item close (left + 1) tokens = .ok (element :: others, last) := by
  rw [items, begins]
  simp only [if_neg opens, first, bind, Except.bind, skipLayout, if_neg comma, further]
  rfl

end Items

private theorem items_elements (depth : Nat) {values : List String} {left : Nat}
    (enough : values.length < left) :
    items (value depth) .closeBracket left
      (.newline :: (values.flatMap elementTokens ++ .closeBracket :: rest)) =
      .ok (values.map .string, rest) := by
  induction values generalizing left with
  | nil =>
    obtain ⟨more, rfl⟩ := Nat.exists_eq_add_one_of_ne_zero (Nat.ne_of_gt enough)
    exact items_close rfl
  | cons text others ih =>
    obtain ⟨more, rfl⟩ := Nat.exists_eq_add_one_of_ne_zero (Nat.ne_zero_of_lt enough)
    have first := value_text depth text
      (.comma :: .newline :: (others.flatMap elementTokens ++ .closeBracket :: rest))
    have opens : tokenOf text ≠ .closeBracket := nofun
    have comma : Token.comma ≠ .closeBracket := by decide
    rw [List.flatMap_cons, List.append_assoc]
    exact items_more (by rfl) opens first comma (ih (Nat.lt_of_succ_lt_succ enough))

private theorem length_le_flatMap {α : Type} {written : α → List Token}
    (nonempty : ∀ a, written a ≠ []) (items : List α) :
    items.length ≤ (items.flatMap written).length := by
  induction items with
  | nil => exact Nat.le_refl 0
  | cons first more ih =>
    have : 0 < (written first).length := List.length_pos_of_ne_nil (nonempty first)
    rw [List.flatMap_cons, List.length_append, List.length_cons]
    omega

private theorem value_bracket {depth : Nat} {inside : List Token} {elements : List Value}
    (read : items (value depth) .closeBracket inside.length inside = .ok (elements, rest)) :
    value (depth + 1) (.openBracket :: inside) = .ok (.array elements, rest) := by
  rw [value]
  simp only [read]
  rfl

private theorem value_elements (depth : Nat) (values : List String) (rest : List Token) :
    value (depth + 1)
      (.openBracket :: .newline :: (values.flatMap elementTokens ++ .closeBracket :: rest)) =
      .ok (.array (values.map .string), rest) := by
  apply value_bracket
  apply items_elements
  have := @length_le_flatMap _ elementTokens (fun _ => List.cons_ne_nil _ _) values
  rw [List.length_cons, List.length_append]
  omega

private theorem value_content (depth : Nat) (given : Content) (rest : List Token) :
    value (depth + 1) (contentTokens given ++ rest) = .ok (valueOf given, rest) := by
  match given with
  | .text text => exact value_text (depth + 1) text rest
  | .texts [] => exact value_bracket (items_close rfl)
  | .texts [text] => exact value_bracket (items_last rfl nofun (value_text depth text _) rfl)
  | .texts (first :: second :: more) =>
    have elements := value_elements depth (first :: second :: more) rest
    simp only [contentTokens, List.cons_append, List.append_assoc, List.nil_append]
    exact elements

private theorem key_word {key : String} (bare : Bare key) (spaces : List Char) (rest : List Token) :
    Toml.key (.word key.toList :: .blank spaces :: .equals :: rest) =
      .ok ([key], .equals :: rest) := by
  have part : keyPart? (.word key.toList) = some key := by
    rw [keyPart?, if_pos bare.2, String.ofList_toList]
  have parts : keyParts [] true (.word key.toList :: .blank spaces :: .equals :: rest) =
      .ok ([key], .equals :: rest) := by
    simp [keyParts, part]
  rw [Toml.key, parts]
  rfl

private theorem skipBlank_content (given : Content) (rest : List Token) :
    skipBlank (contentTokens given ++ rest) = contentTokens given ++ rest := by
  match given with
  | .text text => rfl
  | .texts [] => rfl
  | .texts [text] => rfl
  | .texts (first :: second :: more) => rfl

private theorem statement_line {entry : String × Content} (bare : Bare entry.1)
    (rest : List Token) :
    statement (lineTokens entry ++ rest) =
      .ok (some (.assign [entry.1] (valueOf entry.2)), .newline :: rest) := by
  have named := key_word bare [' '] (.blank [' '] :: (contentTokens entry.2 ++ .newline :: rest))
  have read := value_content 79 entry.2 (.newline :: rest)
  have assigned : assignment skipBlank (value nestingLimit) (lineTokens entry ++ rest) =
      .ok (([entry.1], valueOf entry.2), .newline :: rest) := by
    simp only [lineTokens, List.cons_append, List.append_assoc, List.nil_append]
    rw [assignment, named]
    change (value nestingLimit (skipBlank (contentTokens entry.2 ++ .newline :: rest)) >>= _) = _
    rw [skipBlank_content, nestingLimit, read]
    rfl
  change (assignment skipBlank (value nestingLimit) (lineTokens entry ++ rest) >>= _) = _
  rw [assigned]
  rfl

private theorem statements_line {entry : String × Content} (bare : Bare entry.1) {left : Nat}
    {others : List Statement} (read : statements left rest = .ok others) :
    statements (left + 1) (lineTokens entry ++ rest) =
      .ok (.assign [entry.1] (valueOf entry.2) :: others) := by
  have first := statement_line bare rest
  change (statement (lineTokens entry ++ rest) >>= _) = _
  rw [first]
  change (statements left rest >>= _) = _
  rw [read]
  rfl

private theorem statements_document {entries : List (String × Content)}
    (bare : ∀ entry ∈ entries, Bare entry.1) {left : Nat} (enough : entries.length ≤ left) :
    statements left (entries.flatMap lineTokens) =
      .ok (entries.map fun entry => .assign [entry.1] (valueOf entry.2)) := by
  induction entries generalizing left with
  | nil => cases left <;> rfl
  | cons entry more ih =>
    obtain ⟨here, later⟩ := List.forall_mem_cons.1 bare
    cases left with
    | zero => cases enough
    | succ left => exact statements_line here (ih later (Nat.le_of_succ_le_succ enough))

end Reading

/-- Puts the values of entries into a draft, one after another. -/
def filled (draft : Draft) (entries : List (String × Value)) : Draft :=
  entries.foldl (fun draft entry => Draft.put entry.1 (.done entry.2) draft) draft

private theorem find?_put_of_ne {key other : String} (different : other ≠ key) (node : Node)
    (draft : Draft) : Draft.find? key (Draft.put other node draft) = Draft.find? key draft := by
  unfold Draft.find?
  congr 1
  induction draft with
  | nil => simp [Draft.put, different]
  | cons entry rest ih =>
    unfold Draft.put
    split
    · rw [List.find?_cons_of_neg (by simpa using different)]
    · split
      · rename_i same
        rw [List.find?_cons_of_neg (by simpa using different),
          List.find?_cons_of_neg (by simpa [same] using different)]
      · rw [List.find?_cons, List.find?_cons, ih]

private theorem apply_assign {key : String} {draft : Draft} (fresh : Draft.find? key draft = none)
    (value : Value) : Statement.apply ([], draft) (.assign [key] value) =
      .ok ([], Draft.put key (.done value) draft) := by
  change (Draft.add key value draft >>= fun changed => pure ([], changed)) = _
  rw [Draft.add, fresh]
  rfl

private theorem foldlM_apply {draft : Draft} {entries : List (String × Value)}
    (fresh : ∀ entry ∈ entries, Draft.find? entry.1 draft = none)
    (distinct : (entries.map Prod.fst).Nodup) :
    (entries.map fun entry => Statement.assign [entry.1] entry.2).foldlM Statement.apply
      ([], draft) = .ok ([], filled draft entries) := by
  induction entries generalizing draft with
  | nil => rfl
  | cons entry more ih =>
    obtain ⟨here, later⟩ := List.forall_mem_cons.1 fresh
    rw [List.map_cons, List.nodup_cons] at distinct
    rw [List.map_cons, List.foldlM_cons, apply_assign here]
    refine ih (fun other member => ?_) distinct.2
    have different : entry.1 ≠ other.1 := fun same =>
      distinct.1 (same ▸ List.mem_map_of_mem member)
    rw [find?_put_of_ne different, later other member]

private theorem skipMark_document {entries : List (String × Content)}
    (bare : ∀ entry ∈ entries, Bare entry.1) : skipMark (document entries) = document entries := by
  cases entries with
  | nil => rfl
  | cons entry more =>
    obtain ⟨nonempty, allowed⟩ := bare entry (List.mem_cons_self ..)
    obtain ⟨c, others, chars⟩ := List.exists_cons_of_ne_nil nonempty
    rw [chars, List.all_cons, Bool.and_eq_true] at allowed
    simp only [document, List.flatMap_cons, line, chars, List.cons_append]
    unfold skipMark
    split
    · rename_i marked
      rw [(List.cons.inj marked).1] at allowed
      exact absurd allowed.1 (by decide)
    · rfl

/-- The entries of a document are read back, keys in ascending order. -/
theorem parse_document {entries : List (String × Content)}
    (bare : ∀ entry ∈ entries, Bare entry.1) (distinct : (entries.map Prod.fst).Nodup) :
    parse (String.ofList (document entries)) =
      .ok (Draft.values (filled [] (entries.map (Prod.map id valueOf)))) := by
  have read : tokens (skipMark (String.ofList (document entries)).toList) =
      .ok (entries.flatMap lineTokens) := by
    rw [String.toList_ofList, skipMark_document bare, tokens_document bare]
  have enough : entries.length ≤ (entries.flatMap lineTokens).length + 1 :=
    Nat.le_succ_of_le (length_le_flatMap (fun _ => List.cons_ne_nil _ _) entries)
  have stated := statements_document bare enough
  have applied : (entries.map fun entry => Statement.assign [entry.1] (valueOf entry.2)).foldlM
      Statement.apply ([], []) = .ok ([], filled [] (entries.map (Prod.map id valueOf))) := by
    rw [← foldlM_apply (fun _ _ => rfl) (by simpa [Function.comp_def] using distinct),
      List.map_map]
    rfl
  unfold parse
  rw [read]
  change (statements _ (entries.flatMap lineTokens) >>= _) = _
  rw [stated]
  change (List.foldlM Statement.apply ([], []) _ >>= _) = _
  rw [applied]
  rfl

end Toml

namespace Descriptor

/-- The table that is found in the text of a descriptor, by ascending keys. -/
def tomlEntries (descriptor : Descriptor) : List (String × Toml.Value) :=
  [("entry_point", .string descriptor.entryPoint.text),
    ("excludes", .array (descriptor.excludes.map fun id => .string id.text)),
    ("hidden_imports", .array (descriptor.hiddenImports.map fun id => .string id.text))] ++
  (match descriptor.platform with
  | some platform => [("platform", .string platform.name)]
  | none => []) ++
  [("search_paths", .array (descriptor.searchPaths.map fun path => .string path.text))]

private theorem values_filled (descriptor : Descriptor) :
    Toml.Draft.values (Toml.filled [] (descriptor.contents.map (Prod.map id Toml.valueOf))) =
      descriptor.tomlEntries := by
  unfold contents tomlEntries
  cases descriptor.platform <;>
    simp only [Option.map_none, Option.map_some, Option.toList_none, Option.toList_some,
      List.append_nil, List.cons_append, List.nil_append, List.map_cons, List.map_nil, List.map_map,
      Prod.map, id, Toml.valueOf, Function.comp_def, Toml.filled, List.foldl_cons, List.foldl_nil,
      Toml.Draft.put, String.reduceLT, String.reduceEq, reduceIte, Toml.Draft.values,
      Toml.Node.value]

private theorem keys_contents (descriptor : Descriptor) :
    (∀ entry ∈ descriptor.contents, Toml.Bare entry.1) ∧
      (descriptor.contents.map Prod.fst).Nodup := by
  unfold contents
  cases descriptor.platform with
  | none => exact ⟨by simp; decide, by simp⟩
  | some platform => exact ⟨by simp; decide, by simp⟩

theorem tomlEntries_inj {first second : Descriptor} :
    first.tomlEntries = second.tomlEntries ↔ first = second := by
  refine ⟨fun same => ?_, fun same => same ▸ rfl⟩
  have paths : ∀ path path' : FilePath, Toml.Value.string path.text = .string path'.text →
      path = path' := fun _ _ same => FilePath.text_inj.1 (Toml.Value.string.inj same)
  have ids : ∀ id id' : ModuleId, Toml.Value.string id.text = .string id'.text → id = id' :=
    fun _ _ same => ModuleId.text_inj.1 (Toml.Value.string.inj same)
  obtain ⟨entryPoint, searchPaths, hiddenImports, excludes, platform⟩ := first
  obtain ⟨entryPoint', searchPaths', hiddenImports', excludes', platform'⟩ := second
  cases platform <;> cases platform' <;>
    simp_all [tomlEntries, List.map_inj_right paths, List.map_inj_right ids]

/-- The text of a descriptor is read back as its table, so only this descriptor has this text. -/
theorem parse_toml (descriptor : Descriptor) :
    Toml.parse (descriptor.render .toml) = .ok descriptor.tomlEntries ∧
      ∀ other, other.render .toml = descriptor.render .toml ↔ other = descriptor := by
  have read (descriptor : Descriptor) :
      Toml.parse (descriptor.render .toml) = .ok descriptor.tomlEntries := by
    obtain ⟨bare, distinct⟩ := descriptor.keys_contents
    rw [← values_filled]
    exact Toml.parse_document bare distinct
  refine ⟨read descriptor, fun other => ⟨fun same => ?_, fun same => same ▸ rfl⟩⟩
  have readToo := read other
  rw [same, read descriptor] at readToo
  exact (tomlEntries_inj.1 (Except.ok.inj readToo)).symm

end Descriptor
end BundlePlan

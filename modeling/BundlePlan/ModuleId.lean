import BundlePlan.Text.Quoted

/-! Module identifiers: one or more segments of ASCII letters, digits, `_` and `-`, joined by
dots. Identifiers are compared as texts, so the order is that of their bytes; membership in a
namespace is decided on the text and agrees with the segments. -/
namespace BundlePlan

/-- A character that may stand in a segment; no other script has any. -/
def isSegmentChar (c : Char) : Bool := c.isAlphanum || c == '_' || c == '-'

/-- Reads segments and dots from left to right; `inside` says whether the segment at hand has a
character already, which a dot and the end both need. -/
def readsAsId (inside : Bool) : List Char → Bool
  | [] => inside
  | c :: rest =>
    if isSegmentChar c then readsAsId true rest
    else c == '.' && inside && readsAsId false rest

theorem char_of_readsAsId {inside : Bool} {cs : List Char} (reads : readsAsId inside cs = true) :
    ∀ c ∈ cs, isSegmentChar c = true ∨ c = '.' := by
  induction cs generalizing inside with
  | nil => nofun
  | cons first rest ih =>
    simp only [readsAsId] at reads
    refine List.forall_mem_cons.2 ?_
    split at reads
    · rename_i segment
      exact ⟨.inl segment, ih reads⟩
    · simp only [Bool.and_eq_true, beq_iff_eq] at reads
      exact ⟨.inr reads.1.1, ih reads.2⟩

structure ModuleId where
  text : String
  wellFormed : readsAsId false text.toList = true
deriving DecidableEq

structure InvalidModuleId where
  value : String
deriving DecidableEq

def InvalidModuleId.message (e : InvalidModuleId) : String :=
  "invalid module identifier: " ++ Text.quoted e.value

namespace ModuleId

instance : ToString ModuleId := ⟨ModuleId.text⟩

def parse? (text : String) : Option ModuleId :=
  if wellFormed : readsAsId false text.toList = true then some ⟨text, wellFormed⟩ else none

def parse (text : String) : Except InvalidModuleId ModuleId :=
  match parse? text with
  | some id => .ok id
  | none => .error ⟨text⟩

/-- Why no identifier could be read out of a document: where it should stand, the reader of the
document fails to find a text, or finds one that is no identifier. -/
inductive DecodingFailure (ε : Type)
  | unread (fault : ε)
  | invalid (invalid : InvalidModuleId)

def decode {ε : Type} (read : Except ε String) : Except (DecodingFailure ε) ModuleId :=
  match read with
  | .error fault => .error (.unread fault)
  | .ok text =>
    match parse text with
    | .ok id => .ok id
    | .error invalid => .error (.invalid invalid)

theorem text_of_parse? {text : String} {id : ModuleId} (parsed : parse? text = some id) :
    id.text = text := by
  simp only [parse?] at parsed
  split at parsed
  · cases parsed; rfl
  · contradiction

@[simp] theorem parse?_text (id : ModuleId) : parse? id.text = some id := by
  simp [parse?, id.wellFormed]

@[simp] theorem text_inj {a b : ModuleId} : a.text = b.text ↔ a = b := by
  cases a; cases b; simp

theorem newline_not_mem (id : ModuleId) : '\n' ∉ id.text.toList := by
  intro member
  rcases char_of_readsAsId id.wellFormed _ member with segment | dot
  · exact absurd segment (by decide)
  · exact absurd dot (by decide)

def segments (id : ModuleId) : List String :=
  (id.text.toList.splitOn '.').map String.ofList

def child (id : ModuleId) (name : String) : Except InvalidModuleId ModuleId :=
  parse (id.text ++ "." ++ name)

/-- Whether `id` is the namespace itself or lies below it: its text goes on after that of the
namespace with nothing or with a dot. -/
def isWithin (id scope : ModuleId) : Bool :=
  let whole := id.text.toList
  let outer := scope.text.toList
  outer.isPrefixOf whole &&
    match whole.drop outer.length with
    | [] => true
    | c :: _ => c == '.'

theorem isWithin_iff {id scope : ModuleId} : id.isWithin scope = true ↔
    ∃ rest, scope.text.toList ++ rest = id.text.toList ∧ ∀ c ∈ rest.head?, c = '.' := by
  have begins (rest : List Char) :
      (match rest with | [] => true | c :: _ => c == '.') = true ↔ ∀ c ∈ rest.head?, c = '.' := by
    cases rest <;> simp
  simp only [isWithin, Bool.and_eq_true, List.isPrefixOf_iff_prefix, begins]
  constructor
  · intro ⟨⟨rest, whole⟩, next⟩
    rw [← whole, List.drop_left] at next
    exact ⟨rest, whole, next⟩
  · intro ⟨rest, whole, next⟩
    refine ⟨⟨rest, whole⟩, ?_⟩
    rw [← whole, List.drop_left]
    exact next

@[simp] theorem isWithin_refl (id : ModuleId) : id.isWithin id = true :=
  isWithin_iff.2 ⟨[], List.append_nil _, fun _ none => nomatch none⟩

theorem isWithin_trans {id inner outer : ModuleId} (first : id.isWithin inner = true)
    (second : inner.isWithin outer = true) : id.isWithin outer = true := by
  obtain ⟨tail, whole, next⟩ := isWithin_iff.1 first
  obtain ⟨rest, part, nextToo⟩ := isWithin_iff.1 second
  refine isWithin_iff.2 ⟨rest ++ tail, ?_, ?_⟩
  · rw [← List.append_assoc, part, whole]
  · cases rest with
    | nil => exact next
    | cons c others => exact nextToo

instance : LT ModuleId := ⟨fun a b => a.text < b.text⟩

instance (a b : ModuleId) : Decidable (a < b) := inferInstanceAs (Decidable (a.text < b.text))

theorem lt_iff {a b : ModuleId} : a < b ↔ a.text < b.text := Iff.rfl

@[simp] theorem lt_irrefl (a : ModuleId) : ¬ a < a := String.lt_irrefl a.text

theorem lt_trans {a b c : ModuleId} (first : a < b) (second : b < c) : a < c :=
  String.lt_trans first second

theorem eq_of_not_lt {a b : ModuleId} (notBelow : ¬ a < b) (notAbove : ¬ b < a) : a = b :=
  text_inj.1 (String.le_antisymm (String.not_lt.1 notAbove) (String.not_lt.1 notBelow))

end ModuleId

/-- Plugin names that begin with an underscore are listed but never bundled. -/
def isPrivate (name : String) : Bool := name.toList.head? == some '_'

end BundlePlan

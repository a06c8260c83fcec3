import Reckon.Proofs.Grammar.Lexeme

/-!
# Tokens and how they are written

A text is read as a list of tokens with blanks anywhere in between, where every name and every
number is the longest match at its place. Whoever writes tokens down needs no look at lexemes: a
blank between any two neighbours that are both names or numbers is enough.
-/
namespace Reckon.Grammar
open Reckon.Number
open Reckon.Text (isBlank)

/-- The characters that are tokens of their own: operators, parentheses and the comma. -/
def isMark (c : Char) : Bool :=
  c == '+' || c == '-' || c == '*' || c == '/' || c == '%' || c == '^' || c == '(' || c == ')' ||
    c == ','

structure Name where
  text : List Char
  isName : IsName text

namespace Name

/-- The name as it is looked up in tables. -/
def string (n : Name) : String := String.ofList n.text

end Name

/-- A numeral with a digit or a point in front of its exponent. -/
structure Literal where
  numeral : Numeral
  wellFormed : WellFormed numeral
  marked : numeral.hasDigitOrPoint = true

/-- A number of a single digit. -/
def Literal.ofDigit (c : Char) (h : c.isDigit = true) : Literal where
  numeral := ⟨[c], none, none⟩
  wellFormed := ⟨by simpa using h, by simp, by simp⟩
  marked := by simp [Numeral.hasDigitOrPoint]

inductive Token where
  | mark (c : Char) (h : isMark c = true)
  | name (n : Name)
  | number (n : Literal)

namespace Token

def text : Token → List Char
  | mark c _ => [c]
  | name n => n.text
  | number n => n.numeral.text

/-- Names and numbers, which need a blank between them. -/
def isWord : Token → Bool
  | mark _ _ => false
  | name _ => true
  | number _ => true

/-- The name that a token is, if it is one. -/
def name? : Token → Option Name
  | name n => some n
  | _ => none

/-- The token is the longest match in front of `rest`. -/
def Stands : Token → List Char → Prop
  | mark _ _, _ => True
  | name n, rest => Longest IsName n.text rest
  | number n, rest => Longest IsNumeral n.numeral.text rest

def openParen : Token := mark '(' rfl
def closeParen : Token := mark ')' rfl
def comma : Token := mark ',' rfl

/-- The signs of a factor. -/
def sign (negative : Bool) : Token :=
  if negative then mark '-' rfl else mark '+' rfl

end Token

/-- Behind its blanks, `text` is the token and then `rest`. -/
def Next (text : List Char) (t : Token) (rest : List Char) : Prop :=
  text.dropWhile isBlank = t.text ++ rest ∧ t.Stands rest

/-- `text` is the tokens one after another, with blanks anywhere in front of them, and then `rest`.
Every name and number is the longest match at its place. -/
inductive Reads : List Token → List Char → List Char → Prop
  | nil (rest : List Char) : Reads [] rest rest
  | blank {ts : List Token} {c : Char} {text rest : List Char} :
      isBlank c = true → Reads ts text rest → Reads ts (c :: text) rest
  | token {ts : List Token} {t : Token} {text rest : List Char} :
      t.Stands text → Reads ts text rest → Reads (t :: ts) (t.text ++ text) rest

/-- `text` is the tokens written one after another, with any blanks around them, and at least one
between two neighbours that are each a name or a number. -/
inductive Spaced : List Token → List Char → Prop
  | nil : Spaced [] []
  | blank {ts : List Token} {c : Char} {text : List Char} :
      isBlank c = true → Spaced ts text → Spaced ts (c :: text)
  | token {ts : List Token} {t : Token} {text : List Char} :
      (t.isWord = true → ∀ next ∈ ts.head?, next.isWord = true → ∃ c ∈ text.head?, isBlank c = true) →
      Spaced ts text → Spaced (t :: ts) (t.text ++ text)

/-- The code points of all blanks. -/
def blankCodes : List Nat :=
  [9, 10, 11, 12, 13, 28, 29, 30, 31, 32, 0x85, 0xA0, 0x1680, 0x2000, 0x2001, 0x2002, 0x2003,
    0x2004, 0x2005, 0x2006, 0x2007, 0x2008, 0x2009, 0x200A, 0x2028, 0x2029, 0x202F, 0x205F, 0x3000]

theorem mem_blankCodes {c : Char} (h : isBlank c = true) : c.toNat ∈ blankCodes := by
  simp only [isBlank, Bool.or_eq_true, Bool.and_eq_true, decide_eq_true_eq, beq_iff_eq] at h
  simp only [blankCodes, List.mem_cons, List.not_mem_nil, or_false]
  omega

theorem isLexical_eq_false_of_isBlank {c : Char} (h : isBlank c = true) : isLexical c = false := by
  have hall : ∀ n ∈ blankCodes, isLexical (Char.ofNat n) = false := by decide +kernel
  have hc := hall _ (mem_blankCodes h)
  rwa [Char.ofNat_toNat] at hc

theorem isBlank_eq_false_of_isLexical {c : Char} (h : isLexical c = true) : isBlank c = false := by
  by_contra hb
  have := isLexical_eq_false_of_isBlank (by simpa using hb)
  simp [h] at this

theorem isBlank_eq_false_of_isMark {c : Char} (h : isMark c = true) : isBlank c = false := by
  simp only [isMark, Bool.or_eq_true, beq_iff_eq] at h
  rcases h with (((((((h | h) | h) | h) | h) | h) | h) | h) | h <;> subst h <;> decide

/-- A mark is no part of a name. -/
theorem isWord_eq_false_of_isMark {c : Char} (h : isMark c = true) : Text.isWord c = false := by
  simp only [isMark, Bool.or_eq_true, beq_iff_eq] at h
  rcases h with (((((((h | h) | h) | h) | h) | h) | h) | h) | h <;> subst h <;> decide

theorem isWord_eq_false_of_isBlank {c : Char} (h : isBlank c = true) : Text.isWord c = false := by
  have hl := isLexical_eq_false_of_isBlank h
  simp only [isLexical, Bool.or_eq_false_iff] at hl
  exact hl.1.1.1

/-- What is no word character ends a numeral, unless it is a point. -/
theorem endsNumeral_of_not_isWord {rest : List Char}
    (h : ∀ c ∈ rest.head?, Text.isWord c = false ∧ c ≠ '.') : EndsNumeral rest := by
  intro c hc
  obtain ⟨hword, hpoint⟩ := h c hc
  refine ⟨?_, hpoint, ?_, ?_⟩
  · by_contra hd
    have := Text.isWord_of_isDigit (by simpa using hd)
    simp [hword] at this
  · rintro rfl
    exact absurd hword (by decide)
  · rintro rfl
    exact absurd hword (by decide)

theorem isLexical_of_isNumberStart {c : Char} (h : Cursor.isNumberStart c = true) :
    isLexical c = true := by
  simp only [Cursor.isNumberStart, Bool.or_eq_true, beq_iff_eq] at h
  rcases h with h | rfl
  · exact isLexical_of_isDigit h
  · decide

/-- A literal starts with a digit or a point. -/
theorem Literal.exists_cons (n : Literal) :
    ∃ c more, n.numeral.text = c :: more ∧ Cursor.isNumberStart c = true := by
  obtain ⟨⟨integral, fraction, exponent⟩, ⟨hi, -, -⟩, hm⟩ := n
  cases integral with
  | cons c more =>
    exact ⟨c, _, rfl, by simp [Cursor.isNumberStart, hi c (by simp)]⟩
  | nil =>
    cases fraction with
    | none => simp [Numeral.hasDigitOrPoint] at hm
    | some digits => exact ⟨'.', _, rfl, rfl⟩

/-- A name starts with a start character. -/
theorem Name.exists_cons (n : Name) :
    ∃ c more, n.text = c :: more ∧ Text.isNameStart c = true := by
  obtain ⟨text, h⟩ := n
  cases text with
  | nil => exact h.elim
  | cons c more => exact ⟨c, more, rfl, h.1⟩

/-- Every token starts with a character of its own, which is no blank. -/
theorem Token.exists_cons (t : Token) : ∃ c more, t.text = c :: more ∧ isBlank c = false := by
  cases t with
  | mark c h => exact ⟨c, [], rfl, isBlank_eq_false_of_isMark h⟩
  | name n =>
    obtain ⟨c, more, hc, hstart⟩ := n.exists_cons
    refine ⟨c, more, hc, isBlank_eq_false_of_isLexical ?_⟩
    simp [isLexical, Text.isWord_of_isNameStart hstart]
  | number n =>
    obtain ⟨c, more, hc, hstart⟩ := n.exists_cons
    exact ⟨c, more, hc, isBlank_eq_false_of_isLexical (isLexical_of_isNumberStart hstart)⟩

theorem Next.length_lt {text rest : List Char} {t : Token} (h : Next text t rest) :
    rest.length < text.length := by
  obtain ⟨c, more, hc, -⟩ := t.exists_cons
  have hlen := congrArg List.length h.1
  have hle := text.length_dropWhile_le isBlank
  simp only [hc, List.length_append, List.length_cons] at hlen
  omega

theorem Next.suffix {text rest : List Char} {t : Token} (h : Next text t rest) : rest <:+ text :=
  (h.1 ▸ List.suffix_append _ _ : rest <:+ text.dropWhile isBlank).trans (List.dropWhile_suffix _)

@[simp] theorem next_dropWhile {text rest : List Char} {t : Token} :
    Next (text.dropWhile isBlank) t rest ↔ Next text t rest := by
  simp [Next]

/-- Only what stands behind the blanks matters. -/
theorem Next.congr {text other rest : List Char} {t : Token} (h : Next text t rest)
    (he : other.dropWhile isBlank = text.dropWhile isBlank) : Next other t rest :=
  ⟨he.trans h.1, h.2⟩

/-- A token with nothing but itself in front of the rest. -/
theorem next_of_stands {t : Token} {rest : List Char} (h : t.Stands rest) :
    Next (t.text ++ rest) t rest := by
  refine ⟨dropWhile_of_stop ?_, h⟩
  obtain ⟨c, more, hc, hb⟩ := t.exists_cons
  simpa [hc] using hb

/-- A lexeme stays the longest if the text behind it is cut off by a barrier. -/
theorem Token.Stands.cut {t : Token} {text other : List Char} (h : t.Stands text)
    (hc : Cut text other) : t.Stands other := by
  cases t with
  | mark c hm => trivial
  | name n => exact Longest.cut (fun _ => isLexical_of_isName) h hc
  | number n => exact Longest.cut (fun _ => isLexical_of_isNumeral) h hc

/-- A lexeme stays the longest if the text changes from the third character behind it on. -/
theorem Token.Stands.near {t : Token} {text other : List Char} (h : t.Stands text)
    (ht : other.take 3 = text.take 3) : t.Stands other := by
  cases t with
  | mark c hm => trivial
  | name n => exact longest_isName_near h ht
  | number n => exact longest_isNumeral_near n.wellFormed h ht

theorem Literal.stands (n : Literal) {rest : List Char} (h : EndsNumeral rest) :
    (Token.number n).Stands rest := by
  have hend := scan_append n.wellFormed h
  have hl := longest_scan (n.numeral.text ++ rest)
  rwa [hend] at hl

/-- The same token comes next in front of everything that it stands in front of. -/
theorem Next.exists_front {text rest : List Char} {t : Token} (h : Next text t rest) :
    ∃ front, text = front ++ rest ∧ front.dropWhile isBlank ≠ [] ∧
      ∀ other, t.Stands other → Next (front ++ other) t other := by
  obtain ⟨c, more, hc, hb⟩ := t.exists_cons
  have hall : ∀ d ∈ text.takeWhile isBlank, isBlank d = true := fun d hd => List.mem_takeWhile_imp hd
  have hdrop : ∀ other, (text.takeWhile isBlank ++ (t.text ++ other)).dropWhile isBlank =
      t.text ++ other := by
    intro other
    rw [List.dropWhile_append_of_pos hall, hc]
    exact dropWhile_of_stop (by simpa using hb)
  refine ⟨text.takeWhile isBlank ++ t.text, ?_, ?_, fun other ho => ⟨?_, ho⟩⟩
  · rw [List.append_assoc, ← h.1, List.takeWhile_append_dropWhile]
  · have hself := hdrop []
    rw [List.append_nil] at hself
    rw [hself, hc]
    simp
  · rw [List.append_assoc]
    exact hdrop other

/-- The same token comes next if the text goes on differently behind a barrier. -/
theorem Next.cut {text rest : List Char} {t : Token} (h : Next text t rest) :
    ∃ front, text = front ++ rest ∧ front.dropWhile isBlank ≠ [] ∧
      ∀ other, Cut rest other → Next (front ++ other) t other := by
  obtain ⟨front, htext, hne, hnext⟩ := h.exists_front
  exact ⟨front, htext, hne, fun other ho => hnext other (h.2.cut ho)⟩

/-- The same token comes next if the text changes from the third character behind it on. -/
theorem Next.near {text rest : List Char} {t : Token} (h : Next text t rest) :
    ∃ front, text = front ++ rest ∧ front.dropWhile isBlank ≠ [] ∧
      ∀ other, other.take 3 = rest.take 3 → Next (front ++ other) t other := by
  obtain ⟨front, htext, hne, hnext⟩ := h.exists_front
  exact ⟨front, htext, hne, fun other ho => hnext other (h.2.near ho)⟩

/-- A token that starts in front of a barrier ends there at the latest, and nothing behind the barrier
matters to it. -/
theorem Next.within {front rest more : List Char} {t : Token} (hb : Barrier rest)
    (hf : front.dropWhile isBlank ≠ []) (h : Next (front ++ rest) t more) :
    ∃ left, more = left ++ rest ∧
      ∀ other, Barrier other → Next (front ++ other) t (left ++ other) := by
  have hdrop : ∀ other, (front ++ other).dropWhile isBlank = front.dropWhile isBlank ++ other := by
    intro other
    rw [List.dropWhile_append, if_neg (by simpa using hf)]
  obtain ⟨left, hfront, hmore⟩ : ∃ left, front.dropWhile isBlank = t.text ++ left ∧
      more = left ++ rest := by
    have hsplit := (hdrop rest).symm.trans h.1
    rcases List.append_eq_append_iff.mp hsplit with ⟨tail, htext, hrest⟩ | hleft
    · cases tail with
      | nil => exact ⟨[], by simpa using htext.symm, by simpa using hrest.symm⟩
      | cons c tail =>
        obtain rfl : rest = c :: (tail ++ more) := hrest
        have hc := hb c rfl
        cases t with
        | mark d hm =>
          have hlen := congrArg List.length htext
          have hpos := List.length_pos_iff.mpr hf
          simp only [Token.text, List.length_append, List.length_cons, List.length_nil] at hlen
          omega
        | name n =>
          have hin := isLexical_of_isName n.isName c (by rw [show n.text = _ from htext]; simp)
          simp [hin] at hc
        | number n =>
          have hin := isLexical_of_isNumeral ⟨_, n.wellFormed, rfl⟩ c
            (by rw [show n.numeral.text = _ from htext]; simp)
          simp [hin] at hc
    · exact hleft
  refine ⟨left, hmore, fun other ho => ⟨?_, ?_⟩⟩
  · rw [hdrop, hfront, List.append_assoc]
  · exact h.2.cut ⟨left, rest, other, hmore, rfl, ho⟩

theorem reads_nil {text rest : List Char} :
    Reads [] text rest ↔ ∃ blanks, (∀ c ∈ blanks, isBlank c = true) ∧ text = blanks ++ rest := by
  constructor
  · intro h
    generalize ht : ([] : List Token) = ts at h
    induction h with
    | nil rest => exact ⟨[], by simp, rfl⟩
    | blank hb h ih =>
      obtain ⟨blanks, hall, rfl⟩ := ih ht
      exact ⟨_ :: blanks, by simpa using ⟨hb, hall⟩, rfl⟩
    | token => simp at ht
  · rintro ⟨blanks, hall, rfl⟩
    induction blanks with
    | nil => exact .nil rest
    | cons c blanks ih =>
      exact .blank (hall c (by simp)) (ih fun d hd => hall d (by simp [hd]))

theorem reads_cons {ts : List Token} {t : Token} {text rest : List Char} :
    Reads (t :: ts) text rest ↔ ∃ more, Next text t more ∧ Reads ts more rest := by
  constructor
  · intro h
    generalize ht : t :: ts = us at h
    induction h with
    | nil rest => simp at ht
    | blank hb h ih =>
      obtain ⟨more, hnext, hmore⟩ := ih ht
      exact ⟨more, ⟨by simpa [hb] using hnext.1, hnext.2⟩, hmore⟩
    | token hs h ih =>
      obtain ⟨rfl, rfl⟩ := List.cons.inj ht
      exact ⟨_, next_of_stands hs, h⟩
  · rintro ⟨more, hnext, hmore⟩
    have hread : Reads (t :: ts) (text.dropWhile isBlank) rest := by
      rw [hnext.1]
      exact .token hnext.2 hmore
    rw [← List.takeWhile_append_dropWhile (p := isBlank) (l := text)]
    generalize hb : text.takeWhile isBlank = blanks
    have hall : ∀ c ∈ blanks, isBlank c = true := by
      rw [← hb]
      exact fun c hc => List.mem_takeWhile_imp hc
    clear hb
    induction blanks with
    | nil => exact hread
    | cons c blanks ih => exact .blank (hall c (by simp)) (ih fun d hd => hall d (by simp [hd]))

theorem Reads.append {ts us : List Token} {text more rest : List Char} (h : Reads ts text more)
    (h' : Reads us more rest) : Reads (ts ++ us) text rest := by
  induction h with
  | nil rest => exact h'
  | blank hb h ih => exact .blank hb (ih h')
  | token hs h ih => exact .token hs (ih h')

theorem reads_append {ts us : List Token} {text rest : List Char} :
    Reads (ts ++ us) text rest ↔ ∃ more, Reads ts text more ∧ Reads us more rest := by
  constructor
  · intro h
    induction ts generalizing text with
    | nil => exact ⟨text, .nil text, h⟩
    | cons t ts ih =>
      obtain ⟨after, hnext, hafter⟩ := reads_cons.mp h
      obtain ⟨more, hmore, hrest⟩ := ih hafter
      exact ⟨more, reads_cons.mpr ⟨after, hnext, hmore⟩, hrest⟩
  · rintro ⟨more, h, h'⟩
    exact h.append h'

/-- Reading no token moves over blanks alone. -/
theorem Reads.dropWhile_eq {text rest : List Char} (h : Reads [] text rest) :
    text.dropWhile isBlank = rest.dropWhile isBlank := by
  obtain ⟨blanks, hall, rfl⟩ := reads_nil.mp h
  rw [List.dropWhile_append_of_pos hall]

/-- The text starts with no blank. -/
def Clear (text : List Char) : Prop := text.dropWhile isBlank = text

theorem clear_dropWhile (text : List Char) : Clear (text.dropWhile isBlank) :=
  dropWhile_dropWhile text

theorem reads_dropWhile (text : List Char) : Reads [] text (text.dropWhile isBlank) :=
  reads_nil.mpr ⟨text.takeWhile isBlank, fun _ hc => List.mem_takeWhile_imp hc,
    List.takeWhile_append_dropWhile.symm⟩

/-- Up to a clear rest, only what stands behind the blanks matters. -/
theorem Reads.congr {ts : List Token} {text other rest : List Char} (h : Reads ts text rest)
    (hc : Clear rest) (he : other.dropWhile isBlank = text.dropWhile isBlank) :
    Reads ts other rest := by
  cases ts with
  | nil =>
    have hrest : other.dropWhile isBlank = rest := he.trans (h.dropWhile_eq.trans hc)
    exact hrest ▸ reads_dropWhile other
  | cons t ts =>
    obtain ⟨more, hnext, hmore⟩ := reads_cons.mp h
    exact reads_cons.mpr ⟨more, hnext.congr he, hmore⟩

/-- Two lists of tokens meet behind the blanks between them. -/
theorem Reads.exists_clear {ts us : List Token} {text rest : List Char}
    (h : Reads (ts ++ us) text rest) (hc : Clear rest) :
    ∃ more, Clear more ∧ Reads ts text more ∧ Reads us more rest := by
  obtain ⟨more, hts, hus⟩ := reads_append.mp h
  refine ⟨more.dropWhile isBlank, clear_dropWhile more, ?_, hus.congr hc (dropWhile_dropWhile more)⟩
  have hread := hts.append (reads_dropWhile more)
  rwa [List.append_nil] at hread

/-- What was read stands in front of the rest. -/
theorem Reads.exists_append {ts : List Token} {text rest : List Char} (h : Reads ts text rest) :
    ∃ front, text = front ++ rest := by
  induction h with
  | nil rest => exact ⟨[], rfl⟩
  | @blank ts c text rest hb h ih =>
    obtain ⟨front, rfl⟩ := ih
    exact ⟨c :: front, rfl⟩
  | @token ts t text rest hs h ih =>
    obtain ⟨front, rfl⟩ := ih
    exact ⟨t.text ++ front, by simp⟩

theorem Reads.length_le {ts : List Token} {text rest : List Char} (h : Reads ts text rest) :
    rest.length ≤ text.length := by
  obtain ⟨front, rfl⟩ := h.exists_append
  simp

theorem Reads.length_lt {ts : List Token} {t : Token} {text rest : List Char}
    (h : Reads (t :: ts) text rest) : rest.length < text.length := by
  obtain ⟨more, hnext, hmore⟩ := reads_cons.mp h
  exact hmore.length_le.trans_lt hnext.length_lt

/-- Text that is read as a token is not blank. -/
theorem Reads.dropWhile_ne_nil {ts : List Token} {t : Token} {front rest : List Char}
    (h : Reads (t :: ts) (front ++ rest) rest) : front.dropWhile isBlank ≠ [] := by
  intro hblank
  obtain ⟨mid, hnext, hmid⟩ := reads_cons.mp h
  have hsame : rest.dropWhile isBlank = (front ++ rest).dropWhile isBlank := by
    rw [List.dropWhile_append, hblank]
    rfl
  have hlt := (hnext.congr hsame).length_lt
  have hle := hmid.length_le
  omega

/-- The same tokens are read from a text that goes on differently behind a barrier. -/
theorem Reads.cut {ts : List Token} {front text other : List Char}
    (h : Reads ts (front ++ text) text) (hc : Cut text other) :
    Reads ts (front ++ other) other := by
  generalize hw : front ++ text = whole at h
  induction h generalizing front with
  | nil rest =>
    obtain rfl : front = [] := by simpa using hw
    exact .nil other
  | @blank ts c tail rest hb h ih =>
    cases front with
    | nil =>
      have hlen := h.length_le
      obtain rfl : rest = c :: tail := by simpa using hw
      simp only [List.length_cons] at hlen
      omega
    | cons d front =>
      obtain ⟨rfl, htail⟩ := List.cons.inj hw
      exact .blank hb (ih hc htail)
  | @token ts t tail rest hs h ih =>
    obtain ⟨more, rfl⟩ := h.exists_append
    obtain rfl : front = t.text ++ more := by simpa [← List.append_assoc] using hw
    rw [List.append_assoc]
    exact .token (hs.cut (hc.append more)) (ih hc rfl)

/-- A mark may stand next to everything. -/
theorem Spaced.mark {ts : List Token} {c : Char} {hm : isMark c = true} {text : List Char}
    (h : Spaced ts text) : Spaced (.mark c hm :: ts) (c :: text) :=
  .token (by simp [Token.isWord]) h

/-- A text of tokens starts with a blank or with its first token. -/
theorem Spaced.head? {ts : List Token} {text : List Char} (h : Spaced ts text) :
    ∀ c ∈ text.head?, isBlank c = true ∨ ∃ t ∈ ts.head?, t.text.head? = some c := by
  intro c hc
  cases h with
  | nil => simp at hc
  | blank hb h =>
    obtain rfl := Option.some.inj hc
    exact .inl hb
  | @token ts t text hsep h =>
    obtain ⟨d, more, hd, -⟩ := t.exists_cons
    refine .inr ⟨t, rfl, ?_⟩
    rw [hd] at hc ⊢
    exact hc

/-- Blanks between words are enough for every name and number to be the longest match. -/
theorem Spaced.reads {ts : List Token} {text : List Char} (h : Spaced ts text) :
    Reads ts text [] := by
  induction h with
  | nil => exact .nil []
  | blank hb h ih => exact .blank hb ih
  | @token ts t text hsep h ih =>
    refine .token ?_ ih
    have hstop : t.isWord = true → ∀ c ∈ text.head?, Text.isWord c = false ∧ c ≠ '.' := by
      intro hword c hc
      rcases h.head? c hc with hb | ⟨next, hnext, hfirst⟩
      · refine ⟨isWord_eq_false_of_isBlank hb, ?_⟩
        rintro rfl
        exact absurd hb (by decide)
      · cases hw : next.isWord with
        | true =>
          obtain ⟨d, hd, hb⟩ := hsep hword next hnext hw
          obtain rfl := Option.some.inj (hc.symm.trans hd)
          refine ⟨isWord_eq_false_of_isBlank hb, ?_⟩
          rintro rfl
          exact absurd hb (by decide)
        | false =>
          cases next with
          | mark m hm =>
            obtain rfl : m = c := by simpa [Token.text] using hfirst
            refine ⟨isWord_eq_false_of_isMark hm, ?_⟩
            rintro rfl
            exact absurd hm (by decide)
          | name n => simp [Token.isWord] at hw
          | number n => simp [Token.isWord] at hw
    cases t with
    | mark c hm => trivial
    | name n => exact longest_isName_of_stop n.isName fun c hc => (hstop rfl c hc).1
    | number n => exact n.stands (endsNumeral_of_not_isWord (hstop rfl))

end Reckon.Grammar

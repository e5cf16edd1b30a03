import Mathlib
import InvertedIndex.Json.Reader
import InvertedIndex.Json.Writer

/-!
Each reader takes the text of its form off the front of any text that does not go on with that form.
-/

set_option autoImplicit false
set_option relaxedAutoImplicit false

namespace InvertedIndex.Json

section Texts

theorem not_surrogate (c : Char) : isHighSurrogate c.toNat = false ∧ isLowSurrogate c.toNat = false := by
  have valid : c.toNat < 0xD800 ∨ 0xDFFF < c.toNat ∧ c.toNat < 0x110000 := c.valid
  constructor
  · simp only [isHighSurrogate, Bool.and_eq_false_iff, decide_eq_false_iff_not]
    omega
  · simp only [isLowSurrogate, Bool.and_eq_false_iff, decide_eq_false_iff_not]
    omega

theorem characters?_map_toNat (cs : List Char) : characters? (cs.map Char.toNat) = some cs := by
  induction cs with
  | nil => rfl
  | cons c rest ih =>
    obtain ⟨high, low⟩ := not_surrogate c
    cases rest with
    | nil => simp [characters?, high, low]
    | cons d rest =>
      rw [List.map_cons] at ih
      simp [characters?, high, low, ih]

theorem textOf?_pointsOf (text : String) : textOf? (pointsOf text) = some text := by
  rw [textOf?, pointsOf, characters?_map_toNat, Option.map_some, String.ofList_toList]

theorem numberedEscape_control : ∀ point < 0x20,
    numberedEscape point =
        ['\\', 'u', '0', '0', Nat.digitChar (point / 16), Nat.digitChar (point % 16)] ∧
      hexPoint? '0' '0' (Nat.digitChar (point / 16)) (Nat.digitChar (point % 16)) = some point := by
  decide

theorem readString_of_plain {c : Char} (notQuote : c ≠ '"') (notBackslash : c ≠ '\\')
    (printable : 0x20 ≤ c.toNat) (more : List Char) :
    readString (c :: more) = (readString more).map fun read => (c.toNat :: read.1, read.2) := by
  rw [readString]
  · rw [if_neg (by omega)]
    cases readString more <;> rfl
  · exact notQuote
  all_goals
    intros
    exact notBackslash ‹_›

theorem readString_short {letter : Char} {point : Nat} (notNumbered : letter ≠ 'u')
    (short : shortEscape? letter = some point) (more : List Char) :
    readString ('\\' :: letter :: more) =
      (readString more).map fun read => (point :: read.1, read.2) := by
  rw [readString]
  · rw [short]
    cases readString more <;> rfl
  · intro a b c d rest numbered
    exact absurd numbered notNumbered

theorem readString_numbered {a b c d : Char} {point : Nat} (digits : hexPoint? a b c d = some point)
    (more : List Char) :
    readString ('\\' :: 'u' :: a :: b :: c :: d :: more) =
      (readString more).map fun read => (point :: read.1, read.2) := by
  rw [readString, digits]
  cases readString more <;> rfl

theorem readString_escape (c : Char) (more : List Char) :
    readString (escape c.toNat ++ more) =
      (readString more).map fun read => (c.toNat :: read.1, read.2) := by
  obtain ⟨high, low⟩ := not_surrogate c
  unfold escape
  -- The last case is the only one without a short escape: the character has a number, or stands for itself.
  split
  case h_8 notQuote notBackslash _ _ _ _ _ =>
    split
    · next numbered =>
      have control : c.toNat < 0x20 := by simpa [high, low] using numbered
      obtain ⟨written, digits⟩ := numberedEscape_control c.toNat control
      rw [written]
      exact readString_numbered digits more
    · next printable =>
      rw [Char.ofNat_toNat]
      refine readString_of_plain ?_ ?_ (by simpa [high, low] using printable) more
      · rintro rfl
        exact notQuote rfl
      · rintro rfl
        exact notBackslash rfl
  all_goals
    next same =>
      rw [same]
      exact readString_short (by decide) rfl more

theorem readString_written (cs rest : List Char) :
    readString ((cs.map Char.toNat).flatMap escape ++ '"' :: rest) = some (cs.map Char.toNat, rest) := by
  induction cs with
  | nil => rfl
  | cons c cs ih =>
    rw [List.map_cons, List.flatMap_cons, List.append_assoc, readString_escape, ih]
    rfl

end Texts

section Numbers

/-- What can stand behind a number without going on with it. -/
def EndsNumber : List Char → Prop
  | [] => True
  | c :: _ => c.isDigit = false ∧ c ≠ '.' ∧ c ≠ 'e' ∧ c ≠ 'E'

variable {rest : List Char}

theorem exists_toDigits_eq_cons (n : Nat) :
    ∃ d ds, Nat.toDigits 10 n = d :: ds ∧ d.isDigit = true ∧ (d = '0' → n = 0) := by
  induction n using Nat.strongRecOn with
  | ind n ih =>
    rw [Nat.toDigits_eq_if (by decide)]
    split
    · next small =>
      refine ⟨_, [], rfl, ?_⟩
      interval_cases n <;> decide
    · next large =>
      obtain ⟨d, ds, digits, digit, leading⟩ := ih (n / 10) (by omega)
      exact ⟨d, ds ++ [Nat.digitChar (n % 10)], by rw [digits, List.cons_append], digit,
        fun zero => absurd (leading zero) (by omega)⟩

theorem readDigits_toDigits (n : Nat) (ends : EndsNumber rest) :
    readDigits (Nat.toDigits 10 n ++ rest) = some (Nat.toDigits 10 n, rest) := by
  have digits : ∀ c ∈ Nat.toDigits 10 n, c.isDigit = true := fun c mem =>
    Nat.isDigit_of_mem_toDigits (by decide) (by decide) mem
  have stop : rest.takeWhile Char.isDigit = [] ∧ rest.dropWhile Char.isDigit = rest := by
    cases rest with
    | nil => exact ⟨rfl, rfl⟩
    | cons c rest => simp [ends.1]
  rw [readDigits, List.takeWhile_append_of_pos digits, List.dropWhile_append_of_pos digits, stop.1,
    stop.2, List.append_nil]
  exact if_neg Nat.toDigits_ne_nil

theorem readWhole_toDigits (n : Nat) (ends : EndsNumber rest) :
    readWhole (Nat.toDigits 10 n ++ rest) = some (Nat.toDigits 10 n, rest) := by
  by_cases zero : n = 0
  · subst zero
    rfl
  · rw [← readDigits_toDigits n ends]
    obtain ⟨d, ds, digits, -, leading⟩ := exists_toDigits_eq_cons n
    rw [digits, List.cons_append, readWhole]
    rintro _ ⟨⟩
    exact zero (leading rfl)

theorem readFraction_of_ends (ends : EndsNumber rest) : readFraction rest = some ([], rest) := by
  unfold readFraction
  split
  · exact absurd rfl ends.2.1
  · rfl

theorem readExponent_of_ends (ends : EndsNumber rest) : readExponent rest = some ([], rest) := by
  cases rest with
  | nil => rfl
  | cons c rest => exact if_neg (not_or.mpr ends.2.2)

theorem readNumber_toDigits (n : Nat) (ends : EndsNumber rest) :
    readNumber (Nat.toDigits 10 n ++ rest) = some (Nat.toDigits 10 n, rest) := by
  have unsigned : readUnsigned (Nat.toDigits 10 n ++ rest) = some (Nat.toDigits 10 n, rest) := by
    simp [readUnsigned, readWhole_toDigits n ends, readFraction_of_ends ends, readExponent_of_ends ends]
  obtain ⟨d, ds, digits, digit, -⟩ := exists_toDigits_eq_cons n
  rw [← unsigned, digits, List.cons_append, readNumber]
  rintro _ ⟨⟩
  cases digit

theorem nat?_ofNat (n : Nat) : (ofNat n).nat? = some n := by
  have digits : (Nat.toDigits 10 n).all Char.isDigit = true :=
    List.all_eq_true.mpr fun c mem => Nat.isDigit_of_mem_toDigits (by decide) (by decide) mem
  have value : Nat.ofDigitChars 10 (Nat.toDigits 10 n) 0 = n :=
    Nat.ofDigitChars_toDigits (by decide) (by decide)
  rw [Nat.ofDigitChars_eq_foldl] at value
  simp only [ofNat, nat?, digits, if_true, Nat.mul_comm _ 10]
  exact congrArg some value

end Numbers

section Values

inductive Textual : Json → Prop
  | null : Textual null
  | bool (value : Bool) : Textual (bool value)
  | ofNat (n : Nat) : Textual (ofNat n)
  | ofText (text : String) : Textual (ofText text)
  | array {items : List Json} (each : ∀ item ∈ items, Textual item) : Textual (array items)
  | object {members : List (List Nat × Json)} (named : ∀ member ∈ members, ∃ name, member.1 = pointsOf name)
      (each : ∀ member ∈ members, Textual member.2) : Textual (object members)

/-- The text of a value is read as that value, whatever stands behind it, with more fuel than it has
characters. -/
def ReadsBack (value : Json) : Prop :=
  ∀ fuel rest, (write value).length < fuel → EndsNumber rest →
    readValue fuel (write value ++ rest) = some (value, rest)

theorem skipBlanks_cons {c : Char} (visible : isBlank c = false) (cs : List Char) :
    skipBlanks (c :: cs) = c :: cs := by
  rw [skipBlanks, List.dropWhile_cons, visible]
  rfl

theorem isBlank_of_isDigit {c : Char} (digit : c.isDigit = true) : isBlank c = false := by
  by_contra blank
  simp only [isBlank, Bool.not_eq_false, Bool.or_eq_true, decide_eq_true_eq] at blank
  rcases blank with ((rfl | rfl) | rfl) | rfl <;> cases digit

section FirstCharacter

variable {c : Char} (fuel : Nat) (cs : List Char)

theorem readValue_digit (digit : c.isDigit = true) :
    readValue (fuel + 1) (c :: cs) = (readNumber (c :: cs)).map fun read => (number read.1, read.2) := by
  rw [readValue, skipBlanks_cons (isBlank_of_isDigit digit)]
  split
  case h_7 => cases readNumber (c :: cs) <;> rfl
  all_goals
    next begins =>
      obtain ⟨rfl, -⟩ := List.cons.inj begins
      cases digit

theorem readValue_quote :
    readValue (fuel + 1) ('"' :: cs) = (readString cs).map fun read => (string read.1, read.2) := by
  rw [readValue, skipBlanks_cons (by decide)]
  simp only
  cases readString cs <;> rfl

theorem readValue_bracket (visible : isBlank c = false) (opens : c ≠ ']') :
    readValue (fuel + 1) ('[' :: c :: cs) =
      (readItems fuel (c :: cs)).map fun read => (array read.1, read.2) := by
  rw [readValue, skipBlanks_cons (by decide)]
  simp only [skipBlanks_cons visible]
  split
  · next closes => exact absurd (List.cons.inj closes).1 opens
  · cases readItems fuel (c :: cs) <;> rfl

theorem readValue_brace (visible : isBlank c = false) (opens : c ≠ '\x7d') :
    readValue (fuel + 1) ('\x7b' :: c :: cs) =
      (readMembers fuel (c :: cs)).map fun read => (object read.1, read.2) := by
  rw [readValue, skipBlanks_cons (by decide)]
  simp only [skipBlanks_cons visible]
  split
  · next closes => exact absurd (List.cons.inj closes).1 opens
  · cases readMembers fuel (c :: cs) <;> rfl

end FirstCharacter

theorem readsBack_of_succ {value : Json}
    (read : ∀ fuel rest, (write value).length ≤ fuel → EndsNumber rest →
      readValue (fuel + 1) (write value ++ rest) = some (value, rest)) : ReadsBack value := by
  intro fuel rest room ends
  cases fuel with
  | zero => cases room
  | succ fuel => exact read fuel rest (Nat.le_of_lt_succ room) ends

theorem readsBack_ofNat (n : Nat) : ReadsBack (ofNat n) := by
  refine readsBack_of_succ fun fuel rest _ ends => ?_
  change readValue (fuel + 1) (Nat.toDigits 10 n ++ rest) = some (number (Nat.toDigits 10 n), rest)
  have read := readNumber_toDigits n ends
  obtain ⟨d, ds, digits, digit, -⟩ := exists_toDigits_eq_cons n
  rw [digits, List.cons_append] at read ⊢
  rw [readValue_digit fuel _ digit, read]
  rfl

theorem readsBack_ofText (text : String) : ReadsBack (ofText text) := by
  refine readsBack_of_succ fun fuel rest _ _ => ?_
  change readValue (fuel + 1) (writeString (pointsOf text) ++ rest) = some (string (pointsOf text), rest)
  rw [writeString, List.cons_append, List.cons_append, List.append_assoc, List.singleton_append,
    readValue_quote, pointsOf, readString_written]
  rfl

theorem exists_write_eq_cons {value : Json} (textual : Textual value) :
    ∃ c cs, write value = c :: cs ∧ isBlank c = false ∧ c ≠ ']' := by
  cases textual with
  | null => exact ⟨_, _, rfl, by decide, by decide⟩
  | bool value => cases value <;> exact ⟨_, _, rfl, by decide, by decide⟩
  | ofNat n =>
    obtain ⟨d, ds, digits, digit, -⟩ := exists_toDigits_eq_cons n
    refine ⟨d, ds, digits, isBlank_of_isDigit digit, ?_⟩
    rintro rfl
    cases digit
  | ofText text => exact ⟨_, _, rfl, by decide, by decide⟩
  | array each => exact ⟨_, _, rfl, by decide, by decide⟩
  | object named each => exact ⟨_, _, rfl, by decide, by decide⟩

theorem exists_writeItems_eq_cons {items : List Json} (nonempty : items ≠ [])
    (each : ∀ item ∈ items, Textual item) :
    ∃ c cs, writeItems items = c :: cs ∧ isBlank c = false ∧ c ≠ ']' := by
  cases items with
  | nil => exact absurd rfl nonempty
  | cons item items =>
    obtain ⟨c, cs, written, visible, opens⟩ := exists_write_eq_cons (each item (List.mem_cons_self ..))
    cases items with
    | nil => exact ⟨c, cs, by rw [writeItems, written], visible, opens⟩
    | cons next items => exact ⟨c, _, by rw [writeItems, written, List.cons_append], visible, opens⟩

theorem exists_writeMembers_eq_cons {members : List (List Nat × Json)} (nonempty : members ≠ []) :
    ∃ cs, writeMembers members = '"' :: cs := by
  match members, nonempty with
  | [_], _ => exact ⟨_, rfl⟩
  | _ :: _ :: _, _ => exact ⟨_, rfl⟩

theorem readItems_write {items : List Json} (nonempty : items ≠ []) (each : ∀ item ∈ items, ReadsBack item)
    (fuel : Nat) (rest : List Char) (room : (writeItems items).length + 1 < fuel) :
    readItems fuel (writeItems items ++ ']' :: rest) = some (items, rest) := by
  induction items generalizing fuel with
  | nil => exact absurd rfl nonempty
  | cons item items ih =>
    obtain ⟨first, others⟩ := List.forall_mem_cons.mp each
    cases fuel with
    | zero => cases room
    | succ fuel =>
      cases items with
      | nil =>
        rw [writeItems] at room ⊢
        rw [readItems, first fuel (']' :: rest) (by omega) (by simp [EndsNumber])]
        rfl
      | cons next items =>
        rw [writeItems, List.length_append, List.length_cons] at room
        rw [writeItems, List.append_assoc, List.cons_append, readItems,
          first fuel _ (by omega) (by simp [EndsNumber])]
        have more := ih (List.cons_ne_nil _ _) others fuel (by omega)
        simp [skipBlanks_cons, isBlank, more]

section Member

variable {fuel : Nat} {cs text rest : List Char} {points : List Nat} {value : Json}

theorem readMembers_last (name : readString cs = some (points, ':' :: text))
    (read : readValue fuel text = some (value, '\x7d' :: rest)) :
    readMembers (fuel + 1) ('"' :: cs) = some ([(points, value)], rest) := by
  rw [readMembers, skipBlanks_cons (by decide)]
  simp [name, read, skipBlanks_cons, isBlank]

theorem readMembers_next {next : List Char} {members : List (List Nat × Json)}
    (name : readString cs = some (points, ':' :: text))
    (read : readValue fuel text = some (value, ',' :: next))
    (others : readMembers fuel next = some (members, rest)) :
    readMembers (fuel + 1) ('"' :: cs) = some ((points, value) :: members, rest) := by
  rw [readMembers, skipBlanks_cons (by decide)]
  simp [name, read, others, skipBlanks_cons, isBlank]

end Member

theorem writeString_pointsOf (text : String) (rest : List Char) :
    writeString (pointsOf text) ++ rest =
      '"' :: ((text.toList.map Char.toNat).flatMap escape ++ '"' :: rest) := by
  simp [writeString, pointsOf]

theorem readMembers_write {members : List (List Nat × Json)} (nonempty : members ≠ [])
    (named : ∀ member ∈ members, ∃ name, member.1 = pointsOf name)
    (each : ∀ member ∈ members, ReadsBack member.2) (fuel : Nat) (rest : List Char)
    (room : (writeMembers members).length + 1 < fuel) :
    readMembers fuel (writeMembers members ++ '\x7d' :: rest) = some (members, rest) := by
  induction members generalizing fuel with
  | nil => exact absurd rfl nonempty
  | cons member members ih =>
    obtain ⟨⟨name, hname⟩, names⟩ := List.forall_mem_cons.mp named
    obtain ⟨first, others⟩ := List.forall_mem_cons.mp each
    obtain ⟨points, value⟩ := member
    obtain rfl : points = pointsOf name := hname
    dsimp only at first
    cases fuel with
    | zero => cases room
    | succ fuel =>
      cases members with
      | nil =>
        rw [writeMembers, List.length_append, List.length_cons] at room
        rw [writeMembers, List.append_assoc, List.cons_append, writeString_pointsOf]
        exact readMembers_last (readString_written _ _) (first fuel _ (by omega) (by simp [EndsNumber]))
      | cons next members =>
        rw [writeMembers, List.length_append, List.length_append, List.length_cons, List.length_cons] at room
        rw [writeMembers, List.append_assoc, List.append_assoc, List.cons_append, List.cons_append,
          writeString_pointsOf]
        exact readMembers_next (readString_written _ _) (first fuel _ (by omega) (by simp [EndsNumber]))
          (ih (List.cons_ne_nil _ _) names others fuel (by omega))

theorem readsBack_array {items : List Json} (textual : ∀ item ∈ items, Textual item)
    (each : ∀ item ∈ items, ReadsBack item) : ReadsBack (array items) := by
  refine readsBack_of_succ fun fuel rest room _ => ?_
  rw [write, List.cons_append, List.length_cons, List.length_append, List.length_singleton] at room
  rw [write, List.cons_append, List.cons_append, List.append_assoc, List.singleton_append]
  by_cases empty : items = []
  · subst empty
    rfl
  · have read := readItems_write empty each fuel rest room
    obtain ⟨c, cs, written, visible, opens⟩ := exists_writeItems_eq_cons empty textual
    rw [written, List.cons_append] at read ⊢
    rw [readValue_bracket _ _ visible opens, read]
    rfl

theorem readsBack_object {members : List (List Nat × Json)}
    (named : ∀ member ∈ members, ∃ name, member.1 = pointsOf name)
    (each : ∀ member ∈ members, ReadsBack member.2) : ReadsBack (object members) := by
  refine readsBack_of_succ fun fuel rest room _ => ?_
  rw [write, List.cons_append, List.length_cons, List.length_append, List.length_singleton] at room
  rw [write, List.cons_append, List.cons_append, List.append_assoc, List.singleton_append]
  by_cases empty : members = []
  · subst empty
    rfl
  · have read := readMembers_write empty named each fuel rest room
    obtain ⟨cs, written⟩ := exists_writeMembers_eq_cons empty
    rw [written, List.cons_append] at read ⊢
    rw [readValue_brace _ _ (by decide) (by decide), read]
    rfl

theorem Textual.readsBack {value : Json} (textual : Textual value) : ReadsBack value := by
  induction textual with
  | null => exact readsBack_of_succ fun _ _ _ _ => rfl
  | bool value => exact readsBack_of_succ fun _ _ _ _ => by cases value <;> rfl
  | ofNat n => exact readsBack_ofNat n
  | ofText text => exact readsBack_ofText text
  | array each ih => exact readsBack_array each ih
  | object named _ ih => exact readsBack_object named ih

theorem parse?_render {value : Json} (textual : Textual value) : parse? value.render = some value := by
  have read := textual.readsBack (2 * (write value).length + 2) [] (by omega) trivial
  rw [List.append_nil] at read
  rw [parse?, render, String.toList_ofList, read]
  rfl

end Values

end InvertedIndex.Json

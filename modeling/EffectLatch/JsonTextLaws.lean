import EffectLatch.JsonTexts
import Mathlib.Algebra.BigOperators.Group.List.Basic
import Mathlib.Algebra.GroupWithZero.Nat
import Mathlib.Data.List.Perm.Subperm
import Mathlib.Data.List.Nodup

/-!
# Reading what was written

A compact text is read back as the value it was written for, and no text of a
value is shorter than the compact one.
-/

namespace Json

theorem isPlain_eq_true_iff {char : Char} :
    isPlain char = true ↔
      char ∉ [' ', '\t', '\n', '\r', '"', '[', ']', '{', '}', ':', ','] := by
  simp only [isPlain, isSpace, punctuation, List.mem_cons, List.not_mem_nil,
    or_false]
  grind

namespace Number

theorem Place.isPlain_of_step {place next : Place} {char : Char}
    (moved : place.step char = some next) : isPlain char = true := by
  rw [isPlain_eq_true_iff]
  intro delimiter
  -- No delimiter moves any place.
  have stuck :
      [' ', '\t', '\n', '\r', '"', '[', ']', '{', '}', ':', ','].all
        (fun other => (place.step other).isNone) = true := by
    cases place <;> decide
  have here := List.all_eq_true.mp stuck char delimiter
  rw [moved] at here
  simp at here

theorem Place.isPlain_of_after {place last : Place} {chars : List Char}
    (moved : place.after chars = some last) :
    ∀ char ∈ chars, isPlain char = true := by
  induction chars generalizing place with
  | nil => simp
  | cons char rest ih =>
      simp only [Place.after, Option.bind_eq_some_iff] at moved
      obtain ⟨next, stepped, moved⟩ := moved
      intro other member
      rcases List.mem_cons.mp member with rfl | member
      · exact isPlain_of_step stepped
      · exact ih moved other member

theorem Place.after_append (place : Place) (chars more : List Char) :
    place.after (chars ++ more) =
      (place.after chars).bind fun next => next.after more := by
  induction chars generalizing place with
  | nil => rfl
  | cons char rest ih =>
      simp only [List.cons_append, Place.after]
      cases place.step char with
      | none => rfl
      | some next => exact ih next

theorem after_digitChar :
    ∀ digit < 10, 0 < digit →
      Place.start.after [Nat.digitChar digit] = some .integer := by
  decide

theorem isDigit_digitChar :
    ∀ digit < 10, (Nat.digitChar digit).isDigit = true := by
  decide

theorem after_toDigits (value : Nat) (positive : 0 < value) :
    Place.start.after (Nat.toDigits 10 value) = some .integer := by
  induction value using Nat.strongRecOn with
  | ind value ih =>
      by_cases small : value < 10
      · rw [Nat.toDigits_of_lt_base small]
        exact after_digitChar value small positive
      · rw [Nat.toDigits_of_base_le (by omega) (by omega), Place.after_append,
          ih (value / 10) (by omega) (by omega)]
        have digit := isDigit_digitChar (value % 10) (by omega)
        simp [Place.after, Place.step, digit]

theorem accepts_toDigits (value : Nat) :
    accepts (Nat.toDigits 10 value) = true := by
  rcases Nat.eq_zero_or_pos value with rfl | positive
  · decide
  · simp [accepts, after_toDigits value positive, Place.accepting]

/-- The decimal text of a natural number. -/
def ofNat (value : Nat) : Number :=
  ⟨Nat.toDigits 10 value, accepts_toDigits value⟩

end Number

/-- A token that ends the word before it. -/
def Token.isMark : Token → Bool
  | word _ => false
  | _ => true

/-- Tokens whose texts can be told apart without spaces. -/
inductive Readable : List Token → Prop
  | nil : Readable []
  | mark (token : Token) (rest : List Token) (ends : token.isMark = true)
      (later : Readable rest) : Readable (token :: rest)
  | last (chars : List Char) (nonempty : chars ≠ [])
      (plain : ∀ char ∈ chars, isPlain char = true) : Readable [.word chars]
  | word (chars : List Char) (token : Token) (rest : List Token)
      (nonempty : chars ≠ []) (plain : ∀ char ∈ chars, isPlain char = true)
      (ends : token.isMark = true) (later : Readable (token :: rest)) :
      Readable (.word chars :: token :: rest)

theorem Readable.append {first : List Token} {token : Token}
    {rest : List Token} (readable : Readable first)
    (ends : token.isMark = true) (later : Readable rest) :
    Readable (first ++ token :: rest) := by
  induction readable with
  | nil => exact .mark token rest ends later
  | mark other more mark _ ih => exact .mark other _ mark ih
  | last chars nonempty plain =>
      exact .word chars token rest nonempty plain ends
        (.mark token rest ends later)
  | word chars other more nonempty plain mark _ ih =>
      exact .word chars other _ nonempty plain mark ih

theorem readable_separated {lists : List (List Token)}
    (readable : ∀ tokens ∈ lists, Readable tokens) :
    Readable (separated lists) := by
  induction lists with
  | nil => exact .nil
  | cons first rest ih =>
      have later := ih fun tokens member =>
        readable tokens (List.mem_cons_of_mem first member)
      cases rest with
      | nil => exact readable first List.mem_cons_self
      | cons second rest =>
          exact (readable first List.mem_cons_self).append rfl later

theorem elementTokens_eq (elements : List Json) :
    elementTokens elements = elements.map tokens := by
  induction elements with
  | nil => rfl
  | cons element rest ih => rw [elementTokens, ih, List.map_cons]

theorem memberTokens_eq (members : List (String × Json)) :
    memberTokens members = members.map fun member =>
      .string member.1 :: .colon :: member.2.tokens := by
  induction members with
  | nil => rfl
  | cons member rest ih => rw [memberTokens, ih, List.map_cons]

/-- A property of the scalars that passes from the parts to the whole holds of
every value. -/
@[elab_as_elim]
theorem induction {motive : Json → Prop} (null : motive null)
    (bool : ∀ value, motive (bool value))
    (number : ∀ value, motive (number value))
    (string : ∀ value, motive (string value))
    (array : ∀ elements, (∀ element ∈ elements, motive element) →
      motive (array elements))
    (object : ∀ members, (∀ member ∈ members, motive member.2) →
      motive (object members)) :
    ∀ value, motive value
  | .null => null
  | .bool value => bool value
  | .number value => number value
  | .string value => string value
  | .array elements => array elements fun element _ =>
      induction null bool number string array object element
  | .object members => object members fun member inside =>
      have smaller : sizeOf member.2 < 1 + sizeOf members := by
        have listed := List.sizeOf_lt_of_mem inside
        have paired : sizeOf member = 1 + sizeOf member.1 + sizeOf member.2 := rfl
        omega
      induction null bool number string array object member.2

theorem Number.chars_ne_nil (value : Number) : value.chars ≠ [] := by
  intro empty
  have accepted := value.accepted
  rw [empty] at accepted
  simp [Number.accepts, Number.Place.after, Number.Place.accepting] at accepted

theorem Number.isPlain_chars (value : Number) :
    ∀ char ∈ value.chars, isPlain char = true := by
  have accepted := value.accepted
  simp only [Number.accepts, Option.any_eq_true] at accepted
  obtain ⟨last, reached, _⟩ := accepted
  exact Number.Place.isPlain_of_after reached

theorem readable_tokens (value : Json) : Readable value.tokens := by
  induction value using Json.induction with
  | null => exact .last _ (by decide) (List.all_eq_true.mp (by decide))
  | bool value =>
      cases value <;>
        exact .last _ (by decide) (List.all_eq_true.mp (by decide))
  | number value => exact .last _ value.chars_ne_nil value.isPlain_chars
  | string value => exact .mark _ _ rfl .nil
  | array elements ih =>
      rw [tokens, elementTokens_eq]
      apply Readable.mark _ _ rfl
      refine Readable.append (readable_separated ?_) rfl .nil
      intro tokens member
      obtain ⟨element, inside, rfl⟩ := List.mem_map.mp member
      exact ih element inside
  | object members ih =>
      rw [tokens, memberTokens_eq]
      apply Readable.mark _ _ rfl
      refine Readable.append (readable_separated ?_) rfl .nil
      intro tokens member
      obtain ⟨named, inside, rfl⟩ := List.mem_map.mp member
      exact .mark _ _ rfl (.mark _ _ rfl (ih named inside))

namespace Mode

/-- A character inside a token. -/
theorem tokenize_of_step {mode next : Mode} {char : Char} (rest : List Char)
    (moved : mode.step char = some ([], next)) :
    mode.tokenize (char :: rest) = next.tokenize rest := by
  rw [tokenize, moved]
  simp only [Option.bind_some, List.nil_append, Option.map_id_fun', id_eq]

theorem tokenize_word (word rest : List Char) {chars : List Char}
    (plain : ∀ char ∈ chars, isPlain char = true) :
    (Mode.word word).tokenize (chars ++ rest) =
      (Mode.word (word ++ chars)).tokenize rest := by
  induction chars generalizing word with
  | nil => simp
  | cons char chars ih =>
      have now := plain char List.mem_cons_self
      have moved : (Mode.word word).step char =
          some ([], Mode.word (word ++ [char])) := by
        rw [step, if_pos now]
      rw [List.cons_append, tokenize_of_step _ moved,
        ih (word ++ [char]) fun other member =>
          plain other (List.mem_cons_of_mem char member),
        List.append_assoc, List.singleton_append]

/-- A word starts between two tokens. -/
theorem tokenize_between_word {chars : List Char} (rest : List Char)
    (nonempty : chars ≠ []) (plain : ∀ char ∈ chars, isPlain char = true) :
    Mode.between.tokenize (chars ++ rest) = (Mode.word chars).tokenize rest := by
  cases chars with
  | nil => exact absurd rfl nonempty
  | cons char chars =>
      have now := plain char List.mem_cons_self
      have started : start char = ([], Mode.word [char]) := by
        simp only [isPlain, Bool.and_eq_true, Bool.not_eq_true', bne_iff_ne,
          ne_eq, Option.isNone_iff_eq_none] at now
        simp [start, now.1.1, now.1.2, now.2]
      have moved : Mode.between.step char = some ([], Mode.word [char]) := by
        rw [step, started]
      rw [List.cons_append, tokenize_of_step _ moved,
        tokenize_word [char] rest fun other member =>
          plain other (List.mem_cons_of_mem char member),
        List.singleton_append]

/-- A character that is not plain ends the word before it. -/
theorem tokenize_word_delimited {word : List Char} {char : Char}
    {rest : List Char} (delimiter : isPlain char = false) :
    (Mode.word word).tokenize (char :: rest) =
      (Mode.between.tokenize (char :: rest)).map (.word word :: ·) := by
  simp only [tokenize, step, delimiter, Bool.false_eq_true, if_false,
    Option.bind_some, Option.map_map]
  rfl

theorem escape_eq_self {char : Char} (quote : char ≠ '"')
    (backslash : char ≠ '\\') (control : ¬ char < ' ') :
    Json.escape char = [char] := by
  have other : ∀ low : Char, low < ' ' → char ≠ low := by
    rintro low below rfl
    exact control below
  simp [Json.escape, quote, backslash, control, other '\x08' (by decide),
    other '\t' (by decide), other '\n' (by decide), other '\x0c' (by decide),
    other '\r' (by decide)]

/-- A character is written with a short escape, with its number, or as it
is. -/
theorem escape_cases (char : Char) :
    (∃ mark, mark ≠ 'u' ∧ unescape mark = some char ∧ mark.utf8Size = 1 ∧
      Json.escape char = ['\\', mark]) ∨
    (char < ' ' ∧ Json.escape char = ['\\', 'u', '0', '0',
      hexDigit (char.toNat / 16), hexDigit (char.toNat % 16)]) ∨
    (char ≠ '"' ∧ char ≠ '\\' ∧ ¬ char < ' ' ∧
      Json.escape char = [char]) := by
  have short : ∀ mark meant : Char, mark ≠ 'u' ∧ unescape mark = some meant ∧
      mark.utf8Size = 1 ∧ Json.escape meant = ['\\', mark] →
      char = meant → ∃ mark, mark ≠ 'u' ∧ unescape mark = some char ∧
        mark.utf8Size = 1 ∧ Json.escape char = ['\\', mark] := by
    rintro mark meant written rfl
    exact ⟨mark, written⟩
  by_cases quote : char = '"'
  · exact .inl (short '"' _ (by decide) quote)
  by_cases backslash : char = '\\'
  · exact .inl (short '\\' _ (by decide) backslash)
  by_cases backspace : char = '\x08'
  · exact .inl (short 'b' _ (by decide) backspace)
  by_cases tab : char = '\t'
  · exact .inl (short 't' _ (by decide) tab)
  by_cases newline : char = '\n'
  · exact .inl (short 'n' _ (by decide) newline)
  by_cases feed : char = '\x0c'
  · exact .inl (short 'f' _ (by decide) feed)
  by_cases carriage : char = '\r'
  · exact .inl (short 'r' _ (by decide) carriage)
  by_cases control : char < ' '
  · right; left
    simp [Json.escape, quote, backslash, backspace, tab, newline, feed,
      carriage, control]
  · right; right
    exact ⟨quote, backslash, control, escape_eq_self quote backslash control⟩

theorem hexValue_hexDigit :
    ∀ digit < 16, hexValue (hexDigit digit) = some digit := by
  decide

/-- A control character is read back from its four digits. -/
theorem tokenize_control (chars rest : List Char) {char : Char}
    (control : char < ' ') :
    (Mode.string chars).tokenize (['\\', 'u', '0', '0',
        hexDigit (char.toNat / 16), hexDigit (char.toNat % 16)] ++ rest) =
      (Mode.string (chars ++ [char])).tokenize rest := by
  have small : char.toNat < 32 := control
  have upper := hexValue_hexDigit (char.toNat / 16) (by omega)
  have lower := hexValue_hexDigit (char.toNat % 16) (by omega)
  have whole : char.toNat / 16 * 16 + char.toNat % 16 = char.toNat := by omega
  have first : ¬ (55296 ≤ char.toNat ∧ char.toNat < 56320) := by omega
  have second : ¬ (56320 ≤ char.toNat ∧ char.toNat < 57344) := by omega
  have zeros : ∀ count < 2, (Mode.hex chars none 0 count).step '0' =
      some ([], Mode.hex chars none 0 (count + 1)) := by
    intro count few
    simp [step, show hexValue '0' = some 0 from rfl,
      show count < 3 from Nat.lt_succ_of_lt few]
  have third : (Mode.hex chars none 0 2).step (hexDigit (char.toNat / 16)) =
      some ([], Mode.hex chars none (char.toNat / 16) 3) := by
    simp [step, upper]
  have fourth : (Mode.hex chars none (char.toNat / 16) 3).step
      (hexDigit (char.toNat % 16)) = some ([], Mode.string (chars ++ [char])) := by
    simp [step, lower, whole, unicode, first, second, Char.ofNat_toNat]
  simp only [List.cons_append, List.nil_append]
  rw [tokenize_of_step _ (rfl : (Mode.string chars).step '\\' = _),
    tokenize_of_step _ (rfl : (Mode.escape chars).step 'u' = _),
    tokenize_of_step _ (zeros 0 (by omega)),
    tokenize_of_step _ (zeros 1 (by omega)), tokenize_of_step _ third,
    tokenize_of_step _ fourth]

theorem tokenize_escape (chars rest : List Char) (char : Char) :
    (Mode.string chars).tokenize (Json.escape char ++ rest) =
      (Mode.string (chars ++ [char])).tokenize rest := by
  obtain ⟨mark, short, found, _, text⟩ | ⟨control, text⟩ |
      ⟨quote, backslash, control, text⟩ := escape_cases char
  · have moved : (Mode.escape chars).step mark =
        some ([], Mode.string (chars ++ [char])) := by
      simp [step, short, found]
    rw [text, List.cons_append, List.singleton_append,
      tokenize_of_step _ (rfl : (Mode.string chars).step '\\' = _),
      tokenize_of_step _ moved]
  · rw [text]
    exact tokenize_control chars rest control
  · have moved : (Mode.string chars).step char =
        some ([], Mode.string (chars ++ [char])) := by
      simp [step, quote, backslash, control]
    rw [text, List.singleton_append, tokenize_of_step _ moved]

theorem tokenize_string (value : List Char) :
    ∀ chars rest : List Char,
      (Mode.string chars).tokenize
          (value.flatMap Json.escape ++ '"' :: rest) =
        (Mode.between.tokenize rest).map
          (.string (String.ofList (chars ++ value)) :: ·) := by
  induction value with
  | nil =>
      intro chars rest
      simp [tokenize, step]
  | cons char value ih =>
      intro chars rest
      rw [List.flatMap_cons, List.append_assoc, tokenize_escape, ih,
        List.append_assoc]
      rfl

theorem tokenize_mark (token : Token) (rest : List Char)
    (mark : token.isMark = true) :
    Mode.between.tokenize (token.text ++ rest) =
      (Mode.between.tokenize rest).map (token :: ·) := by
  cases token with
  | string value =>
      have read := tokenize_string value.toList [] rest
      simp only [List.nil_append, String.ofList_toList] at read
      have started : start '"' = ([], Mode.string []) := by decide
      have moved : Mode.between.step '"' = some ([], Mode.string []) := by
        rw [step, started]
      rw [Token.text, List.cons_append, List.append_assoc,
        List.singleton_append, tokenize_of_step _ moved, read]
  | word chars => simp [Token.isMark] at mark
  | openArray => rfl
  | closeArray => rfl
  | openObject => rfl
  | closeObject => rfl
  | colon => rfl
  | comma => rfl

theorem text_of_mark {token : Token} (mark : token.isMark = true) :
    ∃ char rest, token.text = char :: rest ∧ isPlain char = false := by
  cases token with
  | word chars => simp [Token.isMark] at mark
  | string value => exact ⟨_, _, rfl, by decide⟩
  | openArray => exact ⟨_, _, rfl, by decide⟩
  | closeArray => exact ⟨_, _, rfl, by decide⟩
  | openObject => exact ⟨_, _, rfl, by decide⟩
  | closeObject => exact ⟨_, _, rfl, by decide⟩
  | colon => exact ⟨_, _, rfl, by decide⟩
  | comma => exact ⟨_, _, rfl, by decide⟩

/-- Readable tokens are found again in their text. -/
theorem tokenize_text {tokens : List Token} (readable : Readable tokens) :
    Mode.between.tokenize (tokens.flatMap Token.text) = some tokens := by
  induction readable with
  | nil => rfl
  | mark token rest ends _ ih =>
      rw [List.flatMap_cons, tokenize_mark token _ ends, ih]
      rfl
  | last chars nonempty plain =>
      have read := tokenize_between_word [] nonempty plain
      simpa [Token.text, tokenize, finish] using read
  | word chars token rest nonempty plain ends _ ih =>
      obtain ⟨char, more, text, delimiter⟩ := text_of_mark ends
      rw [List.flatMap_cons, Token.text,
        tokenize_between_word _ nonempty plain]
      rw [List.flatMap_cons, text, List.cons_append] at ih ⊢
      rw [tokenize_word_delimited delimiter, ih]
      rfl

end Mode

namespace State

theorem run_append (state : State) (first rest : List Token) :
    state.run (first ++ rest) =
      (state.run first).bind fun next => next.run rest := by
  induction first generalizing state with
  | nil => rfl
  | cons token first ih =>
      simp only [List.cons_append, run]
      cases state.step token with
      | none => rfl
      | some next => exact ih next

theorem scalar_number (value : Number) :
    scalar value.chars = some (number value) := by
  have other : ∀ word : String, Number.accepts word.toList = false →
      value.chars ≠ word.toList := by
    intro word rejected same
    have accepted := value.accepted
    rw [same, rejected] at accepted
    simp at accepted
  simp only [scalar, other "null" (by decide), other "true" (by decide),
    other "false" (by decide), if_false, value.accepted, dif_pos]

theorem run_elements (elements : List Json)
    (parts : ∀ element ∈ elements, ∀ stack,
      (value stack).run element.tokens = some (complete element stack)) :
    ∀ done stack, (elements = [] → done = []) →
      (value (.elements done :: stack)).run
          (separated (elements.map tokens) ++ [.closeArray]) =
        some (complete (.array (done ++ elements)) stack) := by
  induction elements with
  | nil =>
      intro done stack first
      rw [first rfl]
      rfl
  | cons element rest ih =>
      intro done stack _
      have read := parts element List.mem_cons_self (.elements done :: stack)
      cases rest with
      | nil =>
          simp only [List.map_cons, List.map_nil, separated]
          rw [run_append, read]
          rfl
      | cons second rest =>
          have later := ih
            (fun other member => parts other (List.mem_cons_of_mem element member))
            (done ++ [element]) stack (fun none => nomatch none)
          simp only [List.map_cons, separated] at later ⊢
          rw [List.append_assoc, run_append, read]
          simp only [Option.bind_some, List.cons_append, run, step, later,
            List.append_assoc, List.nil_append]

theorem run_members (members : List (String × Json))
    (parts : ∀ member ∈ members, ∀ stack,
      (value stack).run member.2.tokens = some (complete member.2 stack)) :
    ∀ done stack, (members = [] → done = []) →
      (key done stack).run
          (separated (members.map fun member =>
            .string member.1 :: .colon :: member.2.tokens) ++ [.closeObject]) =
        some (complete (.object (done ++ members)) stack) := by
  induction members with
  | nil =>
      intro done stack first
      rw [first rfl]
      rfl
  | cons member rest ih =>
      intro done stack _
      have read := parts member List.mem_cons_self
        (.members done member.1 :: stack)
      cases rest with
      | nil =>
          simp only [List.map_cons, List.map_nil, separated, List.cons_append,
            run, step, Option.bind_some]
          rw [run_append, read]
          rfl
      | cons second rest =>
          have later := ih
            (fun other inside => parts other (List.mem_cons_of_mem member inside))
            (done ++ [member]) stack (fun none => nomatch none)
          simp only [List.map_cons, separated, List.cons_append, run, step,
            Option.bind_some, List.append_assoc] at later ⊢
          rw [run_append, read]
          simp only [Option.bind_some, run, step, later, List.nil_append]

/-- The tokens of a value complete it, whatever is open around it. -/
theorem run_tokens (json : Json) :
    ∀ stack, (value stack).run json.tokens = some (complete json stack) := by
  induction json using Json.induction with
  | null => intro stack; rfl
  | bool value => intro stack; cases value <;> rfl
  | number value =>
      intro stack
      simp [tokens, run, step, scalar_number]
  | string value => intro stack; rfl
  | array elements ih =>
      intro stack
      rw [tokens, elementTokens_eq]
      exact run_elements elements ih [] stack fun _ => rfl
  | object members ih =>
      intro stack
      rw [tokens, memberTokens_eq]
      exact run_members members ih [] stack fun _ => rfl

/-- The tokens that opened a frame and filled it. -/
def frameTokens : Frame → List Token
  | .elements done => .openArray :: done.flatMap fun json =>
      json.tokens ++ [.comma]
  | .members done text => .openObject :: ((done.flatMap fun member =>
      .string member.1 :: .colon :: (member.2.tokens ++ [.comma])) ++
        [.string text, .colon])

def stackTokens (stack : List Frame) : List Token :=
  stack.reverse.flatMap frameTokens

/-- The tokens that led to a state. -/
def consumed : State → List Token
  | value stack => stackTokens stack
  | key done stack => stackTokens stack ++ .openObject ::
      done.flatMap fun member =>
        .string member.1 :: .colon :: (member.2.tokens ++ [.comma])
  | colon done text stack => stackTokens stack ++ .openObject ::
      ((done.flatMap fun member =>
        .string member.1 :: .colon :: (member.2.tokens ++ [.comma])) ++
          [.string text])
  | complete json stack => stackTokens stack ++ json.tokens

theorem separated_concat (lists : List (List Token)) (last : List Token) :
    separated (lists ++ [last]) =
      (lists.flatMap fun tokens => tokens ++ [.comma]) ++ last := by
  induction lists with
  | nil => rfl
  | cons first rest ih =>
      rw [List.flatMap_cons, List.append_assoc, List.append_assoc, ← ih]
      cases rest <;> rfl

theorem tokens_array_concat (done : List Json) (last : Json) :
    (array (done ++ [last])).tokens =
      frameTokens (.elements done) ++ (last.tokens ++ [.closeArray]) := by
  rw [tokens, elementTokens_eq, List.map_append, List.map_singleton,
    separated_concat, List.flatMap_map]
  simp [frameTokens]

theorem tokens_object_concat (done : List (String × Json)) (text : String)
    (last : Json) :
    (object (done ++ [(text, last)])).tokens =
      frameTokens (.members done text) ++ (last.tokens ++ [.closeObject]) := by
  rw [tokens, memberTokens_eq, List.map_append, List.map_singleton,
    separated_concat, List.flatMap_map]
  simp [frameTokens]

theorem scalar_tokens {chars : List Char} {json : Json}
    (read : scalar chars = some json) : json.tokens = [.word chars] := by
  unfold scalar at read
  split_ifs at read with isNull isTrue isFalse accepted <;>
    (obtain rfl := Option.some.inj read; simp [tokens, *])

/-- One token is consumed at a time. -/
theorem consumed_step {state next : State} {token : Token}
    (moved : state.step token = some next) :
    next.consumed = state.consumed ++ [token] := by
  unfold step at moved
  split at moved
  case h_1 stack chars =>
    obtain ⟨json, read, rfl⟩ := Option.map_eq_some_iff.mp moved
    rw [consumed, consumed, scalar_tokens read]
  all_goals first
    | (obtain rfl := Option.some.inj moved)
    | (simp at moved)
  case h_10 => simp [consumed, stackTokens, tokens_array_concat]
  case h_12 => simp [consumed, stackTokens, tokens_object_concat]
  all_goals simp [consumed, stackTokens, frameTokens, tokens, elementTokens,
    memberTokens, separated]

theorem consumed_run {state last : State} {tokens : List Token}
    (moved : state.run tokens = some last) :
    last.consumed = state.consumed ++ tokens := by
  induction tokens generalizing state with
  | nil =>
      obtain rfl := Option.some.inj moved
      rw [List.append_nil]
  | cons token rest ih =>
      simp only [run, Option.bind_eq_some_iff] at moved
      obtain ⟨next, stepped, moved⟩ := moved
      rw [ih moved, consumed_step stepped, List.append_assoc,
        List.singleton_append]

end State

theorem parse_compact (value : Json) : parse value.compact = some value := by
  unfold parse compact
  rw [Mode.tokenize_text (readable_tokens value)]
  simp [ofTokens, State.run_tokens, State.result]

theorem tokens_of_ofTokens {tokens : List Token} {value : Json}
    (read : ofTokens tokens = some value) : tokens = value.tokens := by
  simp only [ofTokens, Option.bind_eq_some_iff] at read
  obtain ⟨last, moved, finished⟩ := read
  have consumed := State.consumed_run moved
  unfold State.result at finished
  split at finished
  · obtain rfl := Option.some.inj finished
    exact consumed.symm
  · simp at finished

/-- The bytes of a text in UTF-8. -/
def byteSize (chars : List Char) : Nat := (chars.map Char.utf8Size).sum

@[simp]
theorem byteSize_nil : byteSize [] = 0 := rfl

@[simp]
theorem byteSize_cons (char : Char) (rest : List Char) :
    byteSize (char :: rest) = char.utf8Size + byteSize rest := by
  simp [byteSize]

@[simp]
theorem byteSize_append (chars more : List Char) :
    byteSize (chars ++ more) = byteSize chars + byteSize more := by
  simp [byteSize]

theorem byteSize_le (chars : List Char) :
    byteSize chars ≤ 4 * chars.length := by
  induction chars with
  | nil => exact Nat.le_refl 0
  | cons char rest ih =>
      have sized := Char.utf8Size_le_four char
      rw [byteSize_cons, List.length_cons]
      omega

theorem byteSize_escape_le (char : Char) : byteSize (escape char) ≤ 6 := by
  have digits : ∀ digit < 32, byteSize ['\\', 'u', '0', '0',
      hexDigit (digit / 16), hexDigit (digit % 16)] = 6 := by
    decide
  obtain ⟨mark, _, _, small, text⟩ | ⟨control, text⟩ | ⟨_, _, _, text⟩ :=
    Mode.escape_cases char
  · have backslash : '\\'.utf8Size = 1 := by decide
    simp [text, small, backslash]
  · rw [text, digits char.toNat control]
  · have sized := Char.utf8Size_le_four char
    simp only [text, byteSize_cons, byteSize_nil]
    omega

theorem byteSize_escape_of_unescape {mark meant : Char}
    (found : unescape mark = some meant) : byteSize (escape meant) ≤ 2 := by
  unfold unescape at found
  split_ifs at found <;> (obtain rfl := Option.some.inj found; decide)

namespace Mode

/-- The bytes the open token has in a compact text, or had so far. -/
def weight : Mode → Nat
  | between => 0
  | word chars => byteSize chars
  | string chars => 1 + byteSize (chars.flatMap Json.escape)
  | escape chars => 2 + byteSize (chars.flatMap Json.escape)
  | hex chars none _ count => 3 + count + byteSize (chars.flatMap Json.escape)
  | hex chars (some _) _ count =>
      9 + count + byteSize (chars.flatMap Json.escape)
  | pairEscape chars _ => 7 + byteSize (chars.flatMap Json.escape)
  | pairMark chars _ => 8 + byteSize (chars.flatMap Json.escape)

theorem weight_string_concat (chars : List Char) (char : Char) :
    (Mode.string (chars ++ [char])).weight =
      (Mode.string chars).weight + byteSize (Json.escape char) := by
  simp only [weight, List.flatMap_append, List.flatMap_singleton,
    byteSize_append]
  omega

theorem byteSize_of_punctuation {char : Char} {token : Token}
    (found : punctuation char = some token) :
    byteSize token.text = char.utf8Size := by
  unfold punctuation at found
  split_ifs at found with one two three four five six <;>
    (obtain rfl := Option.some.inj found; subst char; rfl)

theorem weight_start (char : Char) :
    byteSize ((start char).1.flatMap Token.text) + (start char).2.weight ≤
      char.utf8Size := by
  unfold start
  split_ifs with space quote
  · exact Nat.zero_le _
  · subst quote
    decide
  · cases found : punctuation char with
    | none => simp [weight]
    | some token => simp [weight, byteSize_of_punctuation found]

theorem weight_unicode {chars : List Char} {high : Option Nat} {value : Nat}
    {next : Mode} (read : unicode chars high value = some next) :
    next.weight ≤ (Mode.hex chars high value 4).weight := by
  have written : ∀ char, (Mode.string (chars ++ [char])).weight ≤
      (Mode.hex chars high value 4).weight := by
    intro char
    have short := byteSize_escape_le char
    rw [weight_string_concat]
    cases high <;> simp only [weight] <;> omega
  unfold unicode at read
  cases high with
  | none =>
      dsimp only at read
      split_ifs at read <;> obtain rfl := Option.some.inj read
      · exact Nat.le_refl _
      · exact written _
  | some high =>
      dsimp only at read
      split_ifs at read
      obtain rfl := Option.some.inj read
      exact written _

/-- No character adds more to the compact text than it takes. -/
theorem weight_step {mode : Mode} {char : Char} {next : List Token × Mode}
    (moved : mode.step char = some next) :
    byteSize (next.1.flatMap Token.text) + next.2.weight ≤
      mode.weight + char.utf8Size := by
  have positive := Char.utf8Size_pos char
  cases mode with
  | between =>
      obtain rfl := Option.some.inj moved
      simpa [weight] using weight_start char
  | word chars =>
      simp only [step] at moved
      split_ifs at moved
      · obtain rfl := Option.some.inj moved
        simp [weight]
      · obtain rfl := Option.some.inj moved
        have started := weight_start char
        have opened : (Mode.word chars).weight = byteSize chars := rfl
        simp only [opened, List.flatMap_cons, byteSize_append, Token.text]
        omega
  | string chars =>
      simp only [step] at moved
      split_ifs at moved with quote backslash control
      · obtain rfl := Option.some.inj moved
        have mark : '"'.utf8Size = 1 := by decide
        simp only [weight, List.flatMap_singleton, Token.text,
          String.toList_ofList, byteSize_cons, byteSize_append, byteSize_nil,
          mark]
        omega
      · obtain rfl := Option.some.inj moved
        simp only [weight, List.flatMap_nil, byteSize_nil]
        omega
      · obtain rfl := Option.some.inj moved
        rw [weight_string_concat, escape_eq_self quote backslash control]
        simp
  | escape chars =>
      simp only [step] at moved
      split_ifs at moved
      · obtain rfl := Option.some.inj moved
        simp only [weight, List.flatMap_nil, byteSize_nil]
        omega
      · obtain ⟨meant, found, rfl⟩ := Option.map_eq_some_iff.mp moved
        have short := byteSize_escape_of_unescape found
        rw [weight_string_concat]
        simp only [weight, List.flatMap_nil, byteSize_nil]
        omega
  | hex chars high value count =>
      simp only [step, Option.bind_eq_some_iff] at moved
      obtain ⟨digit, _, moved⟩ := moved
      split_ifs at moved with more
      · obtain rfl := Option.some.inj moved
        cases high <;> simp only [weight, List.flatMap_nil, byteSize_nil] <;>
          omega
      · obtain ⟨last, read, rfl⟩ := Option.map_eq_some_iff.mp moved
        have complete := weight_unicode read
        cases high <;>
          simp only [weight, List.flatMap_nil, byteSize_nil] at complete ⊢ <;>
          omega
  | pairEscape chars high =>
      simp only [step] at moved
      split_ifs at moved
      obtain rfl := Option.some.inj moved
      simp only [weight, List.flatMap_nil, byteSize_nil]
      omega
  | pairMark chars high =>
      simp only [step] at moved
      split_ifs at moved
      obtain rfl := Option.some.inj moved
      simp only [weight, List.flatMap_nil, byteSize_nil]
      omega

theorem byteSize_tokenize {mode : Mode} {chars : List Char}
    {tokens : List Token} (read : mode.tokenize chars = some tokens) :
    byteSize (tokens.flatMap Token.text) ≤ mode.weight + byteSize chars := by
  induction chars generalizing mode tokens with
  | nil =>
      simp only [tokenize] at read
      cases mode <;> simp only [finish, reduceCtorEq] at read <;>
        (obtain rfl := Option.some.inj read; simp [weight, Token.text])
  | cons char rest ih =>
      simp only [tokenize, Option.bind_eq_some_iff,
        Option.map_eq_some_iff] at read
      obtain ⟨next, moved, later, read, rfl⟩ := read
      have now := weight_step moved
      have then_ := ih read
      simp only [List.flatMap_append, byteSize_append, byteSize_cons]
      omega

end Mode

/-- No text of a value is shorter than the compact one. -/
theorem byteSize_compact_le {chars : List Char} {value : Json}
    (read : parse chars = some value) :
    byteSize value.compact ≤ byteSize chars := by
  simp only [parse, Option.bind_eq_some_iff] at read
  obtain ⟨tokens, tokenized, built⟩ := read
  have sized := Mode.byteSize_tokenize tokenized
  rw [tokens_of_ofTokens built] at sized
  simpa [compact, Mode.weight] using sized

/-- The bytes of a text between its quotes. -/
def escapedBytes (text : String) : Nat := byteSize (text.toList.flatMap escape)

theorem escapedBytes_le (text : String) :
    escapedBytes text ≤ 6 * byteSize text.toList := by
  rw [escapedBytes]
  induction text.toList with
  | nil => exact Nat.le_refl 0
  | cons char rest ih =>
      have short := byteSize_escape_le char
      have positive := Char.utf8Size_pos char
      simp only [List.flatMap_cons, byteSize_append, byteSize_cons]
      omega

@[simp]
theorem byteSize_compact_string (value : String) :
    byteSize (string value).compact = escapedBytes value + 2 := by
  have quote : '"'.utf8Size = 1 := by decide
  simp only [compact, tokens, List.flatMap_singleton, Token.text, byteSize_cons,
    byteSize_append, byteSize_nil, quote, escapedBytes]
  omega

@[simp]
theorem byteSize_compact_number (value : Number) :
    byteSize (number value).compact = byteSize value.chars := by
  simp [compact, tokens, Token.text]

theorem byteSize_separated (lists : List (List Token)) :
    byteSize ((separated lists).flatMap Token.text) =
      (lists.map fun tokens => byteSize (tokens.flatMap Token.text)).sum +
        (lists.length - 1) := by
  have comma : byteSize Token.comma.text = 1 := by decide
  induction lists with
  | nil => rfl
  | cons first rest ih =>
      cases rest with
      | nil => simp [separated]
      | cons second rest =>
          simp only [separated, List.flatMap_append, List.flatMap_cons,
            byteSize_append, ih, comma, List.map_cons, List.sum_cons,
            List.length_cons]
          omega

@[simp]
theorem byteSize_compact_array (elements : List Json) :
    byteSize (array elements).compact =
      2 + (elements.map fun element => byteSize element.compact).sum +
        (elements.length - 1) := by
  have opened : byteSize Token.openArray.text = 1 := by decide
  have closed : byteSize Token.closeArray.text = 1 := by decide
  simp only [compact, tokens, List.flatMap_cons, List.flatMap_append,
    List.flatMap_nil, byteSize_append, byteSize_separated, elementTokens_eq,
    List.map_map, Function.comp_def, List.length_map, byteSize_nil, opened,
    closed]
  omega

@[simp]
theorem byteSize_compact_object (members : List (String × Json)) :
    byteSize (object members).compact =
      2 + (members.map fun member =>
          escapedBytes member.1 + 3 + byteSize member.2.compact).sum +
        (members.length - 1) := by
  have opened : byteSize Token.openObject.text = 1 := by decide
  have closed : byteSize Token.closeObject.text = 1 := by decide
  have named : ∀ member : String × Json,
      byteSize ((.string member.1 :: .colon :: member.2.tokens).flatMap
        Token.text) = escapedBytes member.1 + 3 +
          byteSize member.2.compact := by
    intro member
    have colon : byteSize Token.colon.text = 1 := by decide
    have key := byteSize_compact_string member.1
    simp only [compact, tokens, List.flatMap_singleton] at key
    simp only [List.flatMap_cons, byteSize_append, key, colon, compact]
    omega
  have inside := byteSize_separated (memberTokens members)
  rw [memberTokens_eq, List.map_map, List.length_map] at inside
  simp only [Function.comp_def, named] at inside
  rw [compact, tokens, memberTokens_eq]
  simp only [List.flatMap_cons, List.flatMap_append, List.flatMap_nil,
    byteSize_append, inside, byteSize_nil, opened, closed]
  omega

theorem asNat_ofNat {value bound : Nat} (below : value < bound) :
    (number (.ofNat value)).asNat bound = some value := by
  have digits : (Nat.toDigits 10 value).all Char.isDigit = true := by
    apply List.all_eq_true.mpr
    intro char member
    exact Nat.isDigit_of_mem_toDigits (by omega) (by omega) member
  simp [asNat, Number.ofNat, digits, Nat.ofDigitChars_ten_toDigits, below]

theorem zip_of_mapM {names : List String} {find : String → Option Json} :
    ∀ {values : List Json}, names.mapM find = some values →
      values.length = names.length ∧
        ∀ pair ∈ names.zip values, find pair.1 = some pair.2 := by
  induction names with
  | nil =>
      intro values read
      obtain rfl := Option.some.inj read
      simp
  | cons name names ih =>
      intro values read
      simp only [List.mapM_cons, Option.bind_eq_bind, Option.bind_eq_some_iff,
        Option.pure_def] at read
      obtain ⟨value, found, rest, later, same⟩ := read
      obtain rfl := Option.some.inj same
      obtain ⟨length, pairs⟩ := ih later
      refine ⟨by simp [length], ?_⟩
      intro pair member
      rcases List.mem_cons.mp member with rfl | member
      · exact found
      · exact pairs pair member

/-- The fields read from an object are all it has. -/
theorem perm_of_fields {names : List String} {members : List (String × Json)}
    {values : List Json} (distinct : names.Nodup)
    (read : (object members).fields names = some values) :
    (names.zip values).Perm members := by
  simp only [fields] at read
  split_ifs at read with sized
  obtain ⟨length, pairs⟩ := zip_of_mapM read
  have keys : (names.zip values).map Prod.fst = names :=
    List.map_fst_zip (by omega)
  have nodup : (names.zip values).Nodup := by
    apply List.Nodup.of_map Prod.fst
    rw [keys]
    exact distinct
  have inside : names.zip values ⊆ members := by
    intro pair member
    obtain ⟨before, after, parts, _⟩ :=
      List.lookup_eq_some_iff.mp (pairs pair member)
    rw [parts]
    simp
  apply (nodup.subperm inside).perm_of_length_le
  rw [List.length_zip]
  omega

theorem byteSize_of_fields {names : List String}
    {members : List (String × Json)} {values : List Json}
    (distinct : names.Nodup)
    (read : (object members).fields names = some values) :
    byteSize (object members).compact =
      byteSize (object (names.zip values)).compact := by
  have same := perm_of_fields distinct read
  rw [byteSize_compact_object, byteSize_compact_object, same.length_eq,
    (same.map _).sum_eq]

theorem asString_eq_some_iff {json : Json} {value : String} :
    json.asString = some value ↔ json = string value := by
  cases json <;> simp [asString]

theorem exists_of_asNat {json : Json} {bound value : Nat}
    (read : json.asNat bound = some value) :
    ∃ written, json = number written := by
  cases json with
  | number written => exact ⟨written, rfl⟩
  | _ => simp [asNat] at read

theorem Number.byteSize_chars_pos (value : Number) :
    0 < byteSize value.chars := by
  cases chars : value.chars with
  | nil => exact absurd chars value.chars_ne_nil
  | cons char rest =>
      have positive := Char.utf8Size_pos char
      rw [byteSize_cons]
      omega

namespace Number

/-- Behind a sign digits are read as without one. -/
theorem Place.after_sign {char : Char} (digit : char.isDigit = true)
    (rest : List Char) :
    Place.sign.after (char :: rest) = Place.start.after (char :: rest) := by
  have unsigned : char ≠ '-' := by
    rintro rfl
    exact absurd digit (by decide)
  simp only [Place.after, Place.step, unsigned, if_false]

theorem accepts_negative (value : Nat) :
    accepts ('-' :: Nat.toDigits 10 value) = true := by
  have accepted := accepts_toDigits value
  cases chars : Nat.toDigits 10 value with
  | nil => exact absurd chars Nat.toDigits_ne_nil
  | cons first rest =>
      have digit : first.isDigit = true := by
        apply Nat.isDigit_of_mem_toDigits (b := 10) (n := value) <;> try omega
        rw [chars]
        exact List.mem_cons_self
      have signed : Place.start.after ('-' :: first :: rest) =
          Place.start.after (first :: rest) := Place.after_sign digit rest
      rw [chars] at accepted
      rw [accepts, signed]
      exact accepted

/-- The decimal text of an integer. -/
def ofInt (value : Int) : Number :=
  if value < 0 then
    ⟨'-' :: Nat.toDigits 10 value.natAbs, accepts_negative value.natAbs⟩
  else ofNat value.natAbs

end Number

/-- The value of digits behind a sign, if there is one. -/
def signedValue : List Char → Option Int
  | '-' :: digits =>
      if digits.all Char.isDigit = true then
        some (-(Nat.ofDigitChars 10 digits 0 : Nat))
      else none
  | digits =>
      if digits.all Char.isDigit = true then
        some (Nat.ofDigitChars 10 digits 0 : Nat)
      else none

/-- A signed number within the bounds. -/
def asInt (low high : Int) : Json → Option Int
  | number value =>
      (signedValue value.chars).filter fun value =>
        decide (low ≤ value ∧ value ≤ high)
  | _ => none

theorem signedValue_ofInt (value : Int) :
    signedValue (Number.ofInt value).chars = some value := by
  have digits : (Nat.toDigits 10 value.natAbs).all Char.isDigit = true :=
    List.all_eq_true.mpr fun _ member =>
      Nat.isDigit_of_mem_toDigits (by omega) (by omega) member
  by_cases negative : value < 0
  · have chars : (Number.ofInt value).chars =
        '-' :: Nat.toDigits 10 value.natAbs := by
      rw [Number.ofInt, if_pos negative]
    rw [chars, signedValue, if_pos digits, Nat.ofDigitChars_ten_toDigits]
    exact congrArg some (by omega)
  · have chars : (Number.ofInt value).chars =
        Nat.toDigits 10 value.natAbs := by
      rw [Number.ofInt, if_neg negative, Number.ofNat]
    rw [chars]
    unfold signedValue
    split
    · next rest same =>
      rw [same, List.all_cons] at digits
      exact absurd digits (by simp)
    · rw [if_pos digits, Nat.ofDigitChars_ten_toDigits]
      exact congrArg some (by omega)

theorem asInt_ofInt {low high value : Int} (above : low ≤ value)
    (below : value ≤ high) :
    (number (.ofInt value)).asInt low high = some value := by
  simp [asInt, signedValue_ofInt, above, below]

end Json

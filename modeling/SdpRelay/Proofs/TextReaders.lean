import Mathlib
import SdpRelay.ProblemFile.Shape
import SdpRelay.ProblemFile.Writer

namespace SdpRelay

/-!
# What readers take

A reader takes a text if it yields the value that the text stands for and leaves
exactly what follows.  Behind a value there can only be a comma, a closing mark, or
nothing, and a value starts with none of these; a list or a record is therefore
taken by a reader of items that takes each of its parts.
-/

namespace Reader

variable {β γ δ : Type}

section Steps

/-- A step that succeeds is followed by the next one on what it leaves. -/
theorem bind_of_ok
    {reader : Reader β}
    {text rest : List Char}
    {value : β}
    (taken : reader text = .ok (value, rest))
    (next : β → Reader γ) :
    (reader >>= next) text = next value rest := by
  change (do
    let (value, rest) ← reader text
    next value rest) = _
  rw [taken]
  rfl

theorem map_of_ok
    {reader : Reader β}
    {text rest : List Char}
    {value : β}
    (taken : reader text = .ok (value, rest))
    (change : β → γ) :
    (change <$> reader) text = .ok (change value, rest) := by
  rw [map_eq_pure_bind, bind_of_ok taken]
  rfl

theorem get_bind
    (next : List Char → Reader γ)
    (text : List Char) :
    ((get : Reader (List Char)) >>= next) text = next text text :=
  rfl

theorem set_bind
    (next : PUnit → Reader γ)
    (text rest : List Char) :
    ((set rest : Reader PUnit) >>= next) text = next ⟨⟩ rest :=
  rfl

theorem peek_cons
    {c : Char}
    (visible : isBlank c = false)
    (rest : List Char) :
    peek (c :: rest) = .ok (c, c :: rest) := by
  have kept : (c :: rest).dropWhile isBlank = c :: rest :=
    List.dropWhile_cons_of_neg (by simp [visible])
  have skipped : skipBlanks (c :: rest) = .ok ((), c :: rest) := by
    change Except.ok ((), (c :: rest).dropWhile isBlank) = _
    rw [kept]
  unfold peek
  rw [bind_of_ok skipped]
  rfl

theorem dropOne_cons
    (c : Char)
    (rest : List Char) :
    dropOne (c :: rest) = .ok ((), rest) :=
  rfl

theorem exactly_append
    (chars rest : List Char) :
    exactly chars (chars ++ rest) = .ok ((), rest) := by
  induction chars with
  | nil =>
      rfl
  | cons c chars inductionHypothesis =>
      rw [List.cons_append, exactly, get_bind]
      simp only [↓reduceIte]
      rw [set_bind]
      exact inductionHypothesis

theorem mark_cons
    {c : Char}
    (visible : isBlank c = false)
    (rest : List Char) :
    mark c (c :: rest) = .ok ((), rest) := by
  unfold mark
  rw [bind_of_ok (peek_cons visible rest), if_pos rfl]
  rfl

theorem optionalMark_cons
    {accept : Char → Bool}
    {c : Char}
    (accepted : accept c = true)
    (rest : List Char) :
    optionalMark accept (c :: rest) = .ok (some c, rest) := by
  unfold optionalMark
  rw [get_bind]
  simp only [accepted, ↓reduceIte]
  rfl

/-- A mark that is not next is not taken. -/
theorem optionalMark_of_absent
    {accept : Char → Bool}
    {text : List Char}
    (absent : ∀ c ∈ text.head?, accept c = false) :
    optionalMark accept text = .ok (none, text) := by
  unfold optionalMark
  rw [get_bind]
  cases text with
  | nil =>
      rfl
  | cons c rest =>
      simp only [absent c rfl, Bool.false_eq_true, ↓reduceIte]
      rfl

/-- The digits in front of what is no digit are all taken. -/
theorem digits_append
    {chars rest : List Char}
    (areDigits : ∀ c ∈ chars, c.isDigit = true)
    (stops : ∀ c ∈ rest.head?, c.isDigit = false) :
    digits (chars ++ rest) = .ok (chars, rest) := by
  have left : rest.dropWhile Char.isDigit = rest := by
    cases rest with
    | nil => rfl
    | cons c rest => simp [stops c rfl]
  have taken : rest.takeWhile Char.isDigit = [] := by
    cases rest with
    | nil => rfl
    | cons c rest => simp [stops c rfl]
  unfold digits
  rw [get_bind, set_bind, List.dropWhile_append_of_pos areDigits,
    List.takeWhile_append_of_pos areDigits, left, taken, List.append_nil]
  rfl

theorem someDigits_append
    {chars rest : List Char}
    (atEnd : FileFault)
    (nonempty : chars ≠ [])
    (areDigits : ∀ c ∈ chars, c.isDigit = true)
    (stops : ∀ c ∈ rest.head?, c.isDigit = false) :
    someDigits atEnd (chars ++ rest) = .ok (chars, rest) := by
  obtain ⟨first, others, rfl⟩ := List.exists_cons_of_ne_nil nonempty
  unfold someDigits
  rw [List.cons_append, get_bind]
  simp only [areDigits first List.mem_cons_self, ↓reduceIte]
  exact digits_append areDigits stops

/-- Digits before a point start with zero only if there is no other digit. -/
theorem wholeDigits_append
    {chars rest : List Char}
    (atEnd : FileFault)
    (nonempty : chars ≠ [])
    (areDigits : ∀ c ∈ chars, c.isDigit = true)
    (noLeadingZero : chars = ['0'] ∨ chars.head? ≠ some '0')
    (stops : ∀ c ∈ rest.head?, c.isDigit = false) :
    wholeDigits atEnd (chars ++ rest) = .ok (chars, rest) := by
  unfold wholeDigits
  rw [bind_of_ok (someDigits_append atEnd nonempty areDigits stops)]
  split
  · rename_i second others
    simp at noLeadingZero
  · rfl

end Steps

/-- What may stand behind a value: a comma, a closing mark, or nothing. -/
def Ends (rest : List Char) : Prop :=
  ∀ c ∈ rest.head?, c = ',' ∨ c = ']' ∨ c = '}'

/-- A value starts neither with a blank nor with a closing mark. -/
def Starts (text : List Char) : Prop :=
  ∃ c rest,
    text = c :: rest ∧ isBlank c = false ∧ c ≠ ']' ∧ c ≠ '}'

/-- A reader takes a text as a value, whatever may stand behind it. -/
structure Reads
    (reader : Reader β)
    (text : List Char)
    (value : β) : Prop where
  starts : Starts text
  taken : ∀ rest, Ends rest → reader (text ++ rest) = .ok (value, rest)

/-- Texts that readers of items take one after the other, each changing a draft. -/
inductive ReadsAll
    (item : δ → Reader δ) :
    List (List Char) → δ → δ → Prop where
  | nil (draft : δ) :
      ReadsAll item [] draft draft
  | cons {text : List Char} {texts : List (List Char)} {first next last : δ}
      (taken : Reads (item first) text next)
      (others : ReadsAll item texts next last) :
      ReadsAll item (text :: texts) first last

section Items

variable
  {close : Char}
  {item : δ → Reader δ}

/-- A mark that closes a list or a record. -/
def Closes (close : Char) : Prop :=
  close = ']' ∨ close = '}'

theorem Closes.visible
    (closes : Closes close) :
    isBlank close = false := by
  rcases closes with rfl | rfl <;> decide

theorem Closes.ends
    (closes : Closes close)
    (rest : List Char) :
    Ends (close :: rest) := by
  intro c isHead
  obtain rfl : close = c := Option.some.inj isHead
  exact .inr closes

theorem ends_comma (rest : List Char) :
    Ends (',' :: rest) := by
  intro c isHead
  obtain rfl : ',' = c := Option.some.inj isHead
  exact .inl rfl

/-- No item is next where the closing mark is. -/
theorem another_of_close
    (closes : Closes close)
    (first : Bool)
    (rest : List Char) :
    another close first (close :: rest) = .ok (false, close :: rest) := by
  unfold another
  rw [bind_of_ok (peek_cons closes.visible rest), if_pos rfl]
  rfl

/-- The text of a value is the first item. -/
theorem another_first
    (closes : Closes close)
    {text : List Char}
    (starts : Starts text)
    (rest : List Char) :
    another close true (text ++ rest) = .ok (true, text ++ rest) := by
  obtain ⟨c, others, rfl, visible, notBracket, notBrace⟩ := starts
  have notClose : c ≠ close := by
    rcases closes with rfl | rfl
    · exact notBracket
    · exact notBrace
  unfold another
  rw [List.cons_append, bind_of_ok (peek_cons visible _), if_neg notClose,
    if_pos rfl]
  rfl

/-- The text of a value behind a comma is another item. -/
theorem another_next
    (closes : Closes close)
    {text : List Char}
    (starts : Starts text)
    (rest : List Char) :
    another close false (',' :: text ++ rest) = .ok (true, text ++ rest) := by
  obtain ⟨c, others, rfl, visible, notBracket, notBrace⟩ := starts
  have notClose : c ≠ close := by
    rcases closes with rfl | rfl
    · exact notBracket
    · exact notBrace
  have notComma : ',' ≠ close := by
    rcases closes with rfl | rfl <;> decide
  have commaVisible : isBlank ',' = false := by
    decide
  unfold another
  rw [List.cons_append, bind_of_ok (peek_cons commaVisible _),
    if_neg notComma, if_neg Bool.false_ne_true, if_pos rfl,
    bind_of_ok (dropOne_cons _ _), List.cons_append,
    bind_of_ok (peek_cons visible _), if_neg notClose]
  rfl

/-- The texts of items behind others. -/
def behindCommas (texts : List (List Char)) : List Char :=
  texts.flatMap fun text => ',' :: text

theorem ends_behindCommas
    (closes : Closes close)
    (texts : List (List Char))
    (rest : List Char) :
    Ends (behindCommas texts ++ close :: rest) := by
  cases texts with
  | nil => exact closes.ends rest
  | cons text texts => exact ends_comma _

/-- One more item is taken, and then those behind it. -/
theorem items_step
    (closes : Closes close)
    {first : Bool}
    {before text : List Char}
    {texts : List (List Char)}
    {start next : δ}
    (rest : List Char)
    (isNext :
      another close first before =
        .ok (true, text ++ (behindCommas texts ++ close :: rest)))
    (taken : Reads (item start) text next)
    (limit : Nat) :
    items close item (limit + 1) first start before =
      items close item limit false next
        (behindCommas texts ++ close :: rest) := by
  rw [items, bind_of_ok isNext, if_pos rfl,
    bind_of_ok (taken.taken _ (ends_behindCommas closes texts rest))]

/-- The text of a value behind others is next. -/
theorem another_behindCommas
    (closes : Closes close)
    {text : List Char}
    (starts : Starts text)
    (texts : List (List Char))
    (rest : List Char) :
    another close false (behindCommas (text :: texts) ++ close :: rest) =
      .ok (true, text ++ (behindCommas texts ++ close :: rest)) := by
  rw [behindCommas, List.flatMap_cons, List.append_assoc]
  exact another_next closes starts _

/-- Items that are left are taken, up to the closing mark. -/
theorem items_behind
    (closes : Closes close)
    {texts : List (List Char)}
    {start last : δ}
    (all : ReadsAll item texts start last)
    (rest : List Char)
    {limit : Nat}
    (enough : texts.length < limit) :
    items close item limit false start
        (behindCommas texts ++ close :: rest) =
      .ok (last, rest) := by
  induction all generalizing limit with
  | nil draft =>
      obtain ⟨limit, rfl⟩ := Nat.exists_eq_add_of_lt enough
      rw [items, behindCommas, List.flatMap_nil, List.nil_append,
        bind_of_ok (another_of_close closes false rest)]
      rfl
  | @cons text texts first next last taken others inductionHypothesis =>
      obtain ⟨limit, rfl⟩ := Nat.exists_eq_add_of_lt enough
      have isNext := another_behindCommas closes taken.starts texts rest
      rw [items_step closes rest isNext taken]
      exact inductionHypothesis (by simp only [List.length_cons]; omega)

/-- Texts with a comma between any two of them are the first one and those behind it. -/
theorem separated_cons
    (text : List Char)
    (texts : List (List Char)) :
    ProblemFile.separated (text :: texts) = text ++ behindCommas texts := by
  induction texts generalizing text with
  | nil =>
      simp [ProblemFile.separated, behindCommas]
  | cons next texts inductionHypothesis =>
      rw [ProblemFile.separated, inductionHypothesis]
      · simp [behindCommas]
      · simp

/-- There are not more texts than characters. -/
theorem ReadsAll.length_le
    {texts : List (List Char)}
    {start last : δ}
    (all : ReadsAll item texts start last) :
    texts.length ≤ (behindCommas texts).length := by
  induction all with
  | nil draft => exact le_rfl
  | cons taken others inductionHypothesis =>
      simp only [behindCommas, List.flatMap_cons, List.length_cons,
        List.length_append] at inductionHypothesis ⊢
      omega

/-- All items are taken, up to the closing mark. -/
theorem allItems_separated
    (closes : Closes close)
    {texts : List (List Char)}
    {start last : δ}
    (all : ReadsAll item texts start last)
    (rest : List Char) :
    allItems close item start
        (ProblemFile.separated texts ++ close :: rest) =
      .ok (last, rest) := by
  unfold allItems
  rw [get_bind]
  cases all with
  | nil =>
      rw [ProblemFile.separated, List.nil_append, items,
        bind_of_ok (another_of_close closes true rest)]
      rfl
  | @cons text texts first next last taken others =>
      have counted := others.length_le
      rw [separated_cons, List.append_assoc,
        items_step closes rest (another_first closes taken.starts _) taken]
      refine items_behind closes others rest ?_
      obtain ⟨c, others', rfl, _⟩ := taken.starts
      simp only [List.length_append, List.length_cons]
      omega

end Items

section Values

theorem starts_bracket (rest : List Char) :
    Starts ('[' :: rest) :=
  ⟨'[', rest, rfl, by decide, by decide, by decide⟩

theorem starts_brace (rest : List Char) :
    Starts ('{' :: rest) :=
  ⟨'{', rest, rfl, by decide, by decide, by decide⟩

theorem starts_quote (rest : List Char) :
    Starts ('"' :: rest) :=
  ⟨'"', rest, rfl, by decide, by decide, by decide⟩

/-- The texts of values are read onto a list in front of which they come out reversed. -/
theorem readsAll_values
    {item : Reader β}
    {write : β → List Char}
    {values : List β}
    (each : ∀ value ∈ values, Reads item (write value) value)
    (taken : List β) :
    ReadsAll (fun taken => return (← item) :: taken) (values.map write) taken
      (values.reverse ++ taken) := by
  induction values generalizing taken with
  | nil =>
      exact .nil taken
  | cons value values inductionHypothesis =>
      have first := each value List.mem_cons_self
      have others :=
        inductionHypothesis
          (fun other member => each other (List.mem_cons_of_mem _ member))
          (value :: taken)
      rw [List.reverse_cons, List.append_assoc, List.singleton_append]
      refine .cons ⟨first.starts, ?_⟩ others
      intro rest ends
      rw [bind_of_ok (first.taken rest ends)]
      rfl

/-- A list opens with its mark, and the items follow. -/
theorem listOf_listText
    (item : Reader β)
    (write : β → List Char)
    (values : List β)
    (rest : List Char) :
    listOf item (ProblemFile.listText write values ++ rest) =
      (allItems ']' (fun taken => return (← item) :: taken) [] >>=
          fun reversed => return reversed.reverse)
        (ProblemFile.separated (values.map write) ++ ']' :: rest) := by
  have visible : isBlank '[' = false := by
    decide
  unfold listOf ProblemFile.listText
  rw [List.cons_append, List.cons_append, bind_of_ok (peek_cons visible _),
    if_pos rfl, bind_of_ok (dropOne_cons _ _), List.append_assoc,
    List.singleton_append]

/-- A list is read if each of its values is. -/
theorem reads_listOf
    {item : Reader β}
    {write : β → List Char}
    {values : List β}
    (each : ∀ value ∈ values, Reads item (write value) value) :
    Reads (listOf item) (ProblemFile.listText write values) values := by
  refine ⟨starts_bracket _, ?_⟩
  intro rest _
  have all :=
    allItems_separated (.inl rfl) (readsAll_values each []) rest
  rw [listOf_listText, bind_of_ok all, List.append_nil, List.reverse_reverse]
  rfl

/-- Truth values are read. -/
theorem reads_truth (b : Bool) :
    Reads truth (ProblemFile.truthText b) b := by
  have taken (word : List Char) (rest : List Char) :
      exactly word (word ++ rest) = .ok ((), rest) :=
    exactly_append word rest
  have visibleTrue : isBlank 't' = false := by decide
  have visibleFalse : isBlank 'f' = false := by decide
  cases b with
  | true =>
      refine ⟨⟨'t', _, rfl, by decide, by decide, by decide⟩, ?_⟩
      intro rest _
      unfold truth
      change (peek >>= _) ('t' :: ("rue".toList ++ rest)) = _
      rw [bind_of_ok (peek_cons visibleTrue _)]
      exact bind_of_ok (taken "true".toList rest) _
  | false =>
      refine ⟨⟨'f', _, rfl, by decide, by decide, by decide⟩, ?_⟩
      intro rest _
      unfold truth
      change (peek >>= _) ('f' :: ("alse".toList ++ rest)) = _
      rw [bind_of_ok (peek_cons visibleFalse _)]
      exact bind_of_ok (taken "false".toList rest) _

/-- What may be absent is read where it is. -/
theorem reads_orNull_null {value : Reader β} :
    Reads (orNull value) "null".toList none := by
  refine ⟨⟨'n', _, rfl, by decide, by decide, by decide⟩, ?_⟩
  intro rest _
  have observed :
      orNull.observePeek ("null".toList ++ rest) =
        .ok (some 'n', "null".toList ++ rest) :=
    rfl
  unfold orNull
  rw [bind_of_ok observed]
  exact bind_of_ok (exactly_append "null".toList rest) _

/-- What may be absent is read where it is a list. -/
theorem reads_orNull_listOf
    {item : Reader β}
    {write : β → List Char}
    {values : List β}
    (each : ∀ value ∈ values, Reads item (write value) value) :
    Reads (orNull (listOf item)) (ProblemFile.listText write values)
      (some values) := by
  have taken := reads_listOf each
  refine ⟨taken.starts, ?_⟩
  intro rest ends
  have observed (others : List Char) :
      orNull.observePeek ('[' :: others) = .ok (some '[', '[' :: others) :=
    rfl
  unfold orNull
  rw [ProblemFile.listText, List.cons_append, List.cons_append,
    bind_of_ok (observed _)]
  exact map_of_ok (taken.taken rest ends) some

/-- A string without anything to escape. -/
def Plain (text : String) : Prop :=
  ∀ c ∈ text.toList, c ≠ '"' ∧ c ≠ '\\' ∧ ¬ c < ' '

theorem quotedFrom_append
    {chars : List Char}
    (plain : ∀ c ∈ chars, c ≠ '"' ∧ c ≠ '\\' ∧ ¬ c < ' ')
    (rest : List Char) :
    quotedFrom true .text (chars ++ '"' :: rest) = .ok (chars, rest) := by
  induction chars with
  | nil =>
      rfl
  | cons c chars inductionHypothesis =>
      obtain ⟨notQuote, notEscape, printable⟩ := plain c List.mem_cons_self
      have others :=
        inductionHypothesis fun other member =>
          plain other (List.mem_cons_of_mem _ member)
      have step :
          StringState.text.step true c (chars ++ '"' :: rest) =
            .ok (.text, [c]) := by
        rw [StringState.step, if_neg notEscape, if_neg printable]
      rw [List.cons_append, quotedFrom,
        if_neg (fun both => notQuote both.2), step]
      simp only [bind, Except.bind, others]
      rfl

/-- A quoted string without anything to escape is taken as it is. -/
theorem quoted_quotedText
    {text : String}
    (plain : Plain text)
    (rest : List Char) :
    quoted true (ProblemFile.quotedText text ++ rest) = .ok (text, rest) := by
  have opened :
      exactly ['"'] ('"' :: (text.toList ++ '"' :: rest)) =
        .ok ((), text.toList ++ '"' :: rest) :=
    exactly_append ['"'] _
  have asText :
      ProblemFile.quotedText text ++ rest =
        '"' :: (text.toList ++ '"' :: rest) := by
    simp [ProblemFile.quotedText]
  unfold quoted
  rw [asText, bind_of_ok opened, get_bind, quotedFrom_append plain]
  change Except.ok (String.ofList text.toList, rest) = _
  rw [String.ofList_toList]

/-- A choice is read by its name. -/
theorem reads_choice
    {choices : List (String × β)}
    {key : String}
    {value : β}
    (plain : Plain key)
    (known : choices.lookup key = some value) :
    Reads (choice choices) (ProblemFile.quotedText key) value := by
  refine ⟨starts_quote _, ?_⟩
  intro rest _
  have visible : isBlank '"' = false := by
    decide
  have named :
      (quoted true >>= fun name => chosen choices name)
          (ProblemFile.quotedText key ++ rest) =
        .ok (value, rest) := by
    rw [bind_of_ok (quoted_quotedText plain rest)]
    unfold chosen
    rw [known]
    rfl
  unfold choice
  rw [ProblemFile.quotedText, List.cons_append, List.cons_append,
    bind_of_ok (peek_cons visible _)]
  exact named

end Values

end Reader

namespace Shape

open Reader

variable {β δ : Type}

/-- Texts that the fields of a record take in order, each of which the draft does not have yet. -/
inductive ReadsFields :
    List (RecordField δ) → List (List Char) → δ → δ → Prop where
  | nil (draft : δ) :
      ReadsFields [] [] draft draft
  | cons {field : RecordField δ} {fields : List (RecordField δ)}
      {text : List Char} {texts : List (List Char)} {first next last : δ}
      (absent : field.given first = false)
      (taken : Reads (field.read first) text next)
      (others : ReadsFields fields texts next last) :
      ReadsFields (field :: fields) (text :: texts) first last

/-- The fields of a record have different keys, without anything to escape in them. -/
structure Keyed (shape : Shape δ β) : Prop where
  distinct : (shape.fields.map RecordField.key).Nodup
  plain : ∀ field ∈ shape.fields, Plain field.key

/-- A field is found by its key. -/
theorem find?_key
    {fields : List (RecordField δ)}
    (distinct : (fields.map RecordField.key).Nodup)
    {field : RecordField δ}
    (member : field ∈ fields) :
    fields.find? (fun other => other.key == field.key) = some field := by
  induction fields with
  | nil =>
      cases member
  | cons first others inductionHypothesis =>
      rw [List.map_cons, List.nodup_cons] at distinct
      rw [List.find?_cons]
      rcases List.mem_cons.mp member with rfl | later
      · simp
      · have different : first.key ≠ field.key := by
          intro same
          apply distinct.1
          rw [same]
          exact List.mem_map_of_mem later
        simp only [beq_eq_false_iff_ne.mpr different]
        exact inductionHypothesis distinct.2 later

variable {shape : Shape δ β}

/-- A member goes on with the field that its key names. -/
theorem member_quotedText
    (keyed : shape.Keyed)
    {field : RecordField δ}
    (member : field ∈ shape.fields)
    {draft : δ}
    (absent : field.given draft = false)
    (rest : List Char) :
    shape.member draft (ProblemFile.quotedText field.key ++ ':' :: rest) =
      field.read draft rest := by
  have visible : isBlank ':' = false := by
    decide
  unfold Shape.member
  rw [bind_of_ok (quoted_quotedText (keyed.plain field member) _),
    find?_key keyed.distinct member]
  simp only [absent, Bool.false_eq_true, ↓reduceIte]
  rw [bind_of_ok (mark_cons visible _)]

/-- A member takes the value of the field that its key names. -/
theorem reads_member
    (keyed : shape.Keyed)
    {field : RecordField δ}
    (member : field ∈ shape.fields)
    {draft next : δ}
    {text : List Char}
    (absent : field.given draft = false)
    (taken : Reads (field.read draft) text next) :
    Reads (shape.member draft)
      (ProblemFile.quotedText field.key ++ ':' :: text) next := by
  refine ⟨starts_quote _, ?_⟩
  intro rest ends
  rw [List.append_assoc, List.cons_append,
    member_quotedText keyed member absent]
  exact taken.taken rest ends

/-- The members of a record in order. -/
def memberTexts
    (fields : List (RecordField δ))
    (texts : List (List Char)) :
    List (List Char) :=
  ((fields.map RecordField.key).zip texts).map fun (key, value) =>
    ProblemFile.quotedText key ++ ':' :: value

theorem readsAll_members
    (keyed : shape.Keyed)
    {fields : List (RecordField δ)}
    {texts : List (List Char)}
    {first last : δ}
    (all : ReadsFields fields texts first last)
    (known : ∀ field ∈ fields, field ∈ shape.fields) :
    ReadsAll shape.member (memberTexts fields texts) first last := by
  induction all with
  | nil draft =>
      exact .nil draft
  | @cons field fields text texts first next last absent taken others
      inductionHypothesis =>
      exact
        .cons
          (reads_member keyed (known field List.mem_cons_self) absent taken)
          (inductionHypothesis fun other member =>
            known other (List.mem_cons_of_mem _ member))

/-- The record of a draft that has all its fields. -/
def completed
    (shape : Shape δ β)
    (draft : δ) :
    Reader β :=
  match shape.complete draft with
  | some record => return record
  | none => throw .invalid

/-- A record opens with its mark, and the members follow. -/
theorem read_recordText
    (shape : Shape δ β)
    (texts : List (List Char))
    (rest : List Char) :
    shape.read
        (ProblemFile.recordText
          ((shape.fields.map RecordField.key).zip texts) ++ rest) =
      (allItems '}' shape.member shape.start >>= shape.completed)
        (ProblemFile.separated (memberTexts shape.fields texts) ++
          '}' :: rest) := by
  have visible : isBlank '{' = false := by
    decide
  have asText :
      ProblemFile.recordText
            ((shape.fields.map RecordField.key).zip texts) ++ rest =
        '{' :: (ProblemFile.separated
          (memberTexts shape.fields texts) ++ '}' :: rest) := by
    simp [ProblemFile.recordText, memberTexts]
  unfold Shape.read
  rw [asText, bind_of_ok (peek_cons visible _)]
  rfl

/-- A record is read from its members in order. -/
theorem reads_record
    (keyed : shape.Keyed)
    {texts : List (List Char)}
    {draft : δ}
    {record : β}
    (all : ReadsFields shape.fields texts shape.start draft)
    (complete : shape.complete draft = some record) :
    Reads shape.read
      (ProblemFile.recordText ((shape.fields.map RecordField.key).zip texts))
      record := by
  refine ⟨starts_brace _, ?_⟩
  intro rest _
  have members :=
    allItems_separated (.inr rfl)
      (readsAll_members keyed all fun _ member => member) rest
  rw [read_recordText, bind_of_ok members, completed, complete]
  rfl

end Shape

end SdpRelay

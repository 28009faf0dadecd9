import SdpRelay.Proofs.TextReaders

namespace SdpRelay

/-!
# What readers refuse

A reader refuses a text if it ends in a fault, whatever may stand behind the text.
A list or a record is refused as soon as one of its parts is, when those before it
have been taken.  Where it is known of each part under which condition it is taken,
and that it is refused otherwise, the same is known of the whole.
-/

namespace Reader

variable {β γ δ : Type}

/-- A fault of the first step is the fault of all. -/
theorem bind_of_error
    {reader : Reader β}
    {text : List Char}
    {fault : FileFault}
    (refused : reader text = .error fault)
    (next : β → Reader γ) :
    (reader >>= next) text = .error fault := by
  change (do
    let (value, rest) ← reader text
    next value rest) = _
  rw [refused]
  rfl

/-- A reader refuses a text, whatever may stand behind it. -/
structure Refuses
    (reader : Reader β)
    (text : List Char) : Prop where
  starts : Starts text
  refused :
    ∀ rest, Ends rest → ∃ fault, reader (text ++ rest) = .error fault

/-- What goes on with a value refuses a text of which there is no value. -/
theorem Refuses.bind
    {reader : Reader β}
    {text : List Char}
    (refuses : Refuses reader text)
    (next : β → Reader γ) :
    Refuses (reader >>= next) text := by
  refine ⟨refuses.starts, ?_⟩
  intro rest ends
  obtain ⟨fault, refused⟩ := refuses.refused rest ends
  exact ⟨fault, bind_of_error refused next⟩

/-- Texts of which one is refused, after readers of items took those before it. -/
inductive StopsAt
    (item : δ → Reader δ) :
    List (List Char) → δ → Prop where
  | here {text : List Char} {texts : List (List Char)} {first : δ}
      (refuses : Refuses (item first) text) :
      StopsAt item (text :: texts) first
  | later {text : List Char} {texts : List (List Char)} {first next : δ}
      (taken : Reads (item first) text next)
      (others : StopsAt item texts next) :
      StopsAt item (text :: texts) first

section Items

variable
  {close : Char}
  {item : δ → Reader δ}

/-- The items are refused if the next one is, whatever the limit is. -/
theorem items_refused
    (closes : Closes close)
    {first : Bool}
    {before text : List Char}
    {texts : List (List Char)}
    {start : δ}
    (rest : List Char)
    (isNext :
      another close first before =
        .ok (true, text ++ (behindCommas texts ++ close :: rest)))
    (refuses : Refuses (item start) text)
    (limit : Nat) :
    ∃ fault, items close item limit first start before = .error fault := by
  cases limit with
  | zero => exact ⟨_, rfl⟩
  | succ limit =>
      obtain ⟨fault, refused⟩ :=
        refuses.refused _ (ends_behindCommas closes texts rest)
      rw [items, bind_of_ok isNext, if_pos rfl]
      exact ⟨fault, bind_of_error refused _⟩

/-- Items that are left are refused if one of them is. -/
theorem items_stopped
    (closes : Closes close)
    {texts : List (List Char)}
    {start : δ}
    (stops : StopsAt item texts start)
    (rest : List Char)
    (limit : Nat) :
    ∃ fault,
      items close item limit false start
          (behindCommas texts ++ close :: rest) =
        .error fault := by
  induction stops generalizing limit with
  | @here _ texts _ refuses =>
      exact
        items_refused closes rest
          (another_behindCommas closes refuses.starts texts rest) refuses limit
  | @later _ texts _ _ taken others inductionHypothesis =>
      cases limit with
      | zero => exact ⟨_, rfl⟩
      | succ limit =>
          have isNext := another_behindCommas closes taken.starts texts rest
          rw [items_step closes rest isNext taken]
          exact inductionHypothesis limit

/-- Items between marks are refused if one of them is. -/
theorem allItems_stopped
    (closes : Closes close)
    {texts : List (List Char)}
    {start : δ}
    (stops : StopsAt item texts start)
    (rest : List Char) :
    ∃ fault,
      allItems close item start
          (ProblemFile.separated texts ++ close :: rest) =
        .error fault := by
  unfold allItems
  rw [get_bind]
  cases stops with
  | here refuses =>
      rw [separated_cons, List.append_assoc]
      exact
        items_refused closes rest (another_first closes refuses.starts _)
          refuses _
  | later taken others =>
      rw [separated_cons, List.append_assoc,
        items_step closes rest (another_first closes taken.starts _) taken]
      exact items_stopped closes others rest _

end Items

/-- A reader takes a text as a value under a condition, and refuses it otherwise. -/
structure ReadsIff
    (reader : Reader β)
    (text : List Char)
    (value : β)
    (condition : Prop) : Prop where
  reads : condition → Reads reader text value
  refuses : ¬ condition → Refuses reader text

/-- What is always taken is taken under the condition that always holds. -/
theorem Reads.readsIff
    {reader : Reader β}
    {text : List Char}
    {value : β}
    (reads : Reads reader text value) :
    ReadsIff reader text value True where
  reads := fun _ => reads
  refuses := fun fails => (fails trivial).elim

theorem ReadsIff.congr
    {reader : Reader β}
    {text : List Char}
    {value : β}
    {condition other : Prop}
    (reads : ReadsIff reader text value condition)
    (same : condition ↔ other) :
    ReadsIff reader text value other :=
  propext same ▸ reads

section Values

variable
  {item : Reader β}
  {write : β → List Char}
  {values : List β}
  {condition : β → Prop}

/-- Values are refused if there is one without its condition. -/
theorem stopsAt_values
    (each :
      ∀ value ∈ values, ReadsIff item (write value) value (condition value))
    (fails : ¬ ∀ value ∈ values, condition value)
    (taken : List β) :
    StopsAt (fun taken => return (← item) :: taken) (values.map write)
      taken := by
  induction values generalizing taken with
  | nil =>
      exact (fails (List.forall_mem_nil _)).elim
  | cons value values inductionHypothesis =>
      have first := each value List.mem_cons_self
      by_cases holds : condition value
      · have reads := first.reads holds
        have takes :
            Reads (do return (← item) :: taken) (write value)
              (value :: taken) := by
          refine ⟨reads.starts, ?_⟩
          intro rest ends
          rw [bind_of_ok (reads.taken rest ends)]
          rfl
        refine .later takes ?others
        case others =>
          refine
            inductionHypothesis
              (fun other member => each other (List.mem_cons_of_mem _ member))
              ?_ _
          intro others
          exact fails (List.forall_mem_cons.mpr ⟨holds, others⟩)
      · exact .here ((first.refuses holds).bind _)

/-- A list is read if each of its values meets its condition, and refused otherwise. -/
theorem readsIff_listOf
    (each :
      ∀ value ∈ values, ReadsIff item (write value) value (condition value)) :
    ReadsIff (listOf item) (ProblemFile.listText write values) values
      (∀ value ∈ values, condition value) where
  reads := by
    intro holds
    exact reads_listOf fun value member =>
      (each value member).reads (holds value member)
  refuses := by
    intro fails
    refine ⟨starts_bracket _, ?_⟩
    intro rest _
    obtain ⟨fault, stopped⟩ :=
      allItems_stopped (.inl rfl) (stopsAt_values each fails []) rest
    exact ⟨fault, by rw [listOf_listText, bind_of_error stopped]⟩

end Values

end Reader

namespace Shape

open Reader

variable {β δ : Type}

/-- The value of a field is refused, and with it the member. -/
theorem refuses_member
    {shape : Shape δ β}
    (keyed : shape.Keyed)
    {field : RecordField δ}
    (member : field ∈ shape.fields)
    {draft : δ}
    {text : List Char}
    (absent : field.given draft = false)
    (refuses : Refuses (field.read draft) text) :
    Refuses (shape.member draft)
      (ProblemFile.quotedText field.key ++ ':' :: text) := by
  refine ⟨starts_quote _, ?_⟩
  intro rest ends
  rw [List.append_assoc, List.cons_append,
    member_quotedText keyed member absent]
  exact refuses.refused rest ends

/--
Texts that the fields of a record take in order, each under a condition of its own;
the last part is the condition under which all are taken.
-/
inductive ReadsFieldsIff :
    List (RecordField δ) → List (List Char) → δ → δ → Prop → Prop where
  | nil (draft : δ) :
      ReadsFieldsIff [] [] draft draft True
  | cons {field : RecordField δ} {fields : List (RecordField δ)}
      {text : List Char} {texts : List (List Char)} {first next last : δ}
      {here behind : Prop}
      (absent : field.given first = false)
      (taken : ReadsIff (field.read first) text next here)
      (others : ReadsFieldsIff fields texts next last behind) :
      ReadsFieldsIff (field :: fields) (text :: texts) first last
        (here ∧ behind)

variable
  {shape : Shape δ β}
  {fields : List (RecordField δ)}
  {texts : List (List Char)}
  {first last : δ}
  {condition : Prop}

theorem ReadsFieldsIff.reads
    (all : ReadsFieldsIff fields texts first last condition)
    (holds : condition) :
    ReadsFields fields texts first last := by
  induction all with
  | nil draft =>
      exact .nil draft
  | cons absent taken others inductionHypothesis =>
      exact .cons absent (taken.reads holds.1) (inductionHypothesis holds.2)

/-- Without the condition one of the members is refused. -/
theorem ReadsFieldsIff.stopsAt
    (keyed : shape.Keyed)
    (all : ReadsFieldsIff fields texts first last condition)
    (known : ∀ field ∈ fields, field ∈ shape.fields)
    (fails : ¬ condition) :
    StopsAt shape.member (memberTexts fields texts) first := by
  induction all with
  | nil draft =>
      exact (fails trivial).elim
  | @cons field fields text texts first next last here behind absent taken
      others inductionHypothesis =>
      have isField : field ∈ shape.fields := known field List.mem_cons_self
      by_cases holds : here
      · refine .later (reads_member keyed isField absent (taken.reads holds)) ?_
        refine
          inductionHypothesis
            (fun other member => known other (List.mem_cons_of_mem _ member)) ?_
        exact fun later => fails ⟨holds, later⟩
      · exact .here (refuses_member keyed isField absent (taken.refuses holds))

/-- A record is read if each of its fields meets its condition, and refused otherwise. -/
theorem readsIff_record
    (keyed : shape.Keyed)
    {draft : δ}
    {record : β}
    (all :
      ReadsFieldsIff shape.fields texts shape.start draft condition)
    (complete : shape.complete draft = some record) :
    ReadsIff shape.read
      (ProblemFile.recordText ((shape.fields.map RecordField.key).zip texts))
      record condition where
  reads := fun holds => reads_record keyed (all.reads holds) complete
  refuses := by
    intro fails
    refine ⟨starts_brace _, ?_⟩
    intro rest _
    obtain ⟨fault, stopped⟩ :=
      allItems_stopped (.inr rfl)
        (all.stopsAt keyed (fun _ member => member) fails) rest
    exact ⟨fault, by rw [read_recordText, bind_of_error stopped]⟩

end Shape

end SdpRelay

import GoLayout.FieldLine.Shape
import GoLayout.Proofs.Source.RawString

/-! # Fields with and without a tag

    A tag is a string literal behind a blank, with nothing but blanks behind it (`isTag_iff`).  No
    tag starts in text without quotes, so that the first literal behind such text is the tag,
    whatever stands in it: the field is what stands in front of it (`strip_literal`), and it is read
    as it is without the tag (`FieldLine.classify_tagged`).  Outer blanks make no difference
    (`strip_trim`). -/

namespace GoLayout.Tag

variable {t rest : Text}

/-! ## String literals -/

/-- What may stand between the quotes of an interpreted string literal: characters other than the
    quote and the backslash, and backslashes with a character behind them that is no line break. -/
inductive IsInterpreted : Text → Prop where
  | nil : IsInterpreted []
  | plain {c : Char} {t : Text} : c ≠ '"' → c ≠ '\\' → IsInterpreted t → IsInterpreted (c :: t)
  | escape {c : Char} {t : Text} : c ≠ '\n' → IsInterpreted t → IsInterpreted ('\\' :: c :: t)

/-- A raw or an interpreted string literal. -/
inductive IsLiteral : Text → Prop where
  | raw {t : Text} : rawQuote ∉ t → IsLiteral (rawString t)
  | interpreted {t : Text} : IsInterpreted t → IsLiteral ('"' :: (t ++ ['"']))

theorem afterInterpreted?_cons {c : Char} (h : c ≠ '\\') (t : Text) :
    afterInterpreted? (c :: t) = if c = '"' then some t else afterInterpreted? t := by
  rw [afterInterpreted?]
  · intro hc _
    exact h hc
  · intro _ _ hc _
    exact h hc

/-- The reader of an interpreted string literal stops behind the first quote that is not escaped. -/
theorem afterInterpreted?_eq_some : afterInterpreted? t = some rest ↔
    ∃ inside, IsInterpreted inside ∧ t = inside ++ '"' :: rest := by
  constructor
  · intro h
    -- along the reading: an escape takes two characters, so that an escaped quote does not close
    induction t using afterInterpreted?.induct with
    | case1 => exact nomatch h
    | case2 => exact nomatch h
    | case3 t =>
        rw [afterInterpreted?, if_pos rfl] at h
        exact nomatch h
    | case4 c t hc ih =>
        rw [afterInterpreted?, if_neg hc] at h
        obtain ⟨inside, hinside, rfl⟩ := ih h
        exact ⟨'\\' :: c :: inside, .escape hc hinside, rfl⟩
    | case5 t =>
        rw [afterInterpreted?_cons (by decide), if_pos rfl] at h
        obtain rfl := Option.some.inj h
        exact ⟨[], .nil, rfl⟩
    | case6 c t hlast hescape hc ih =>
        have hbackslash : c ≠ '\\' := by
          intro heq
          cases t with
          | nil => exact hlast heq rfl
          | cons d u => exact hescape d u heq rfl
        rw [afterInterpreted?_cons hbackslash, if_neg hc] at h
        obtain ⟨inside, hinside, rfl⟩ := ih h
        exact ⟨c :: inside, .plain hc hbackslash hinside, rfl⟩
  · rintro ⟨inside, hinside, rfl⟩
    induction hinside with
    | nil => rfl
    | plain hc hbackslash _ ih =>
        rw [List.cons_append, afterInterpreted?_cons hbackslash, if_neg hc, ih]
    | escape hc _ ih => rw [List.cons_append, List.cons_append, afterInterpreted?, if_neg hc, ih]

/-- A text can stand between quotes exactly if a quote behind it closes the literal at the end. -/
theorem isInterpreted_iff : IsInterpreted t ↔ afterInterpreted? (t ++ ['"']) = some [] := by
  rw [afterInterpreted?_eq_some]
  constructor
  · intro h
    exact ⟨t, h, rfl⟩
  · rintro ⟨inside, hinside, heq⟩
    rw [List.append_cancel_right heq]
    exact hinside

instance (t : Text) : Decidable (IsInterpreted t) := decidable_of_iff _ isInterpreted_iff.symm

/-- A literal is read from the start of a text exactly if the text starts with one. -/
theorem afterLiteral?_eq_some : afterLiteral? t = some rest ↔
    ∃ literal, IsLiteral literal ∧ t = literal ++ rest := by
  constructor
  · intro h
    cases t with
    | nil => exact nomatch h
    | cons c t =>
        rw [afterLiteral?] at h
        -- a raw string ends at the next back quote, an interpreted one at the next quote that is
        -- not escaped
        split at h
        · next hraw =>
          obtain ⟨⟨inside, behind⟩, hcut, rfl⟩ := Option.map_eq_some_iff.mp h
          obtain ⟨rfl, hinside⟩ := Text.cutAt?_eq_some.mp hcut
          refine ⟨rawString inside, .raw hinside, ?_⟩
          rw [hraw, rawString, List.cons_append, List.append_assoc]
          rfl
        · split at h
          · next hquote =>
            obtain ⟨inside, hinside, rfl⟩ := afterInterpreted?_eq_some.mp h
            refine ⟨_, .interpreted hinside, ?_⟩
            rw [hquote, List.cons_append, List.append_assoc]
            rfl
          · exact (Option.some_ne_none rest h.symm).elim
  · rintro ⟨literal, hliteral, rfl⟩
    cases hliteral with
    | @raw inside hinside =>
        have hcut : Text.cutAt? rawQuote (inside ++ rawQuote :: rest) = some (inside, rest) :=
          Text.cutAt?_eq_some.mpr ⟨rfl, hinside⟩
        rw [rawString, List.cons_append, List.append_assoc, List.singleton_append, afterLiteral?,
          if_pos rfl, hcut]
        rfl
    | @interpreted inside hinside =>
        rw [List.cons_append, List.append_assoc, List.singleton_append, afterLiteral?,
          if_neg (by decide), if_pos rfl]
        exact afterInterpreted?_eq_some.mpr ⟨inside, hinside, rfl⟩

/-- A tag is a string literal with blanks behind it. -/
theorem isTag_iff : isTag t = true ↔
    ∃ literal behind, IsLiteral literal ∧ Text.AllBlank behind ∧ t = literal ++ behind := by
  rw [isTag, Option.any_eq_true]
  constructor
  · rintro ⟨behind, hafter, hbehind⟩
    obtain ⟨literal, hliteral, rfl⟩ := afterLiteral?_eq_some.mp hafter
    exact ⟨literal, behind, hliteral, Text.isBlankText_iff.mp hbehind, rfl⟩
  · rintro ⟨literal, behind, hliteral, hbehind, rfl⟩
    exact ⟨behind, afterLiteral?_eq_some.mpr ⟨literal, hliteral, rfl⟩,
      Text.isBlankText_iff.mpr hbehind⟩

/-! ## Text without quotes -/

/-- Neither of the two quotes that start a tag stands in the text. -/
def Unquoted (t : Text) : Prop := ∀ c ∈ t, c ≠ '"' ∧ c ≠ rawQuote

theorem Unquoted.of_plain (h : Plain t) : Unquoted t := by
  intro c hc
  have hquote := (isPlain_iff.mp (h c hc)).2
  simp only [isQuote, Bool.or_eq_false_iff, beq_eq_false_iff_ne] at hquote
  exact ⟨hquote.1.1, hquote.2⟩

/-- Text without quotes can be put together. -/
theorem Unquoted.append {u : Text} (ht : Unquoted t) (hu : Unquoted u) : Unquoted (t ++ u) := by
  intro c hc
  rcases List.mem_append.mp hc with hc | hc
  · exact ht c hc
  · exact hu c hc

theorem isTag_of_ne {c : Char} (h : c ≠ '"' ∧ c ≠ rawQuote) (t : Text) :
    isTag (c :: t) = false := by
  rw [isTag, afterLiteral?, if_neg h.2, if_neg h.1]
  rfl

/-- No tag starts in text without quotes, and behind it one may start if it ends with a blank. -/
theorem before?_append (h : Unquoted t) (rest : Text) :
    ∀ mayStart, before? mayStart (t ++ rest) =
      (before? ((t.getLast?.map isBlank).getD mayStart) rest).map (t ++ ·) := by
  induction t with
  | nil =>
      intro mayStart
      show _ = (before? mayStart rest).map id
      rw [Option.map_id]
      rfl
  | cons c t ih =>
      intro mayStart
      have hhead := isTag_of_ne (h c List.mem_cons_self) (t ++ rest)
      -- whether a tag may start is decided by the character in front of it
      have hlast : ((c :: t).getLast?.map isBlank).getD mayStart =
          (t.getLast?.map isBlank).getD (isBlank c) := by
        cases t with
        | nil => rfl
        | cons d t => rw [List.getLast?_cons_cons, List.getLast?_cons]; rfl
      rw [List.cons_append, before?, hhead, Bool.and_false, if_neg Bool.false_ne_true,
        ih fun d hd => h d (List.mem_cons_of_mem _ hd), hlast, Option.map_map]
      rfl

/-- No tag starts in text without quotes. -/
theorem before?_of_unquoted (h : Unquoted t) (mayStart : Bool) : before? mayStart t = none := by
  have happ := before?_append h [] mayStart
  rw [List.append_nil] at happ
  rw [happ]
  rfl

/-- Of text without quotes only the outer blanks are taken away. -/
theorem strip_of_unquoted (h : Unquoted t) : strip t = Text.trim t := by
  rw [strip, before?_of_unquoted h]
  rfl

variable {field blanks literal behind : Text}

/-- A literal behind a blank is the tag, and what stands in front of it is the field. -/
theorem strip_literal (hfield : Unquoted field) (hne : blanks ≠ []) (hblanks : Text.AllBlank blanks)
    (hliteral : IsLiteral literal) (hbehind : Text.AllBlank behind) :
    strip (field ++ blanks ++ (literal ++ behind)) = Text.trim field := by
  have hfront : Unquoted (field ++ blanks) :=
    hfield.append (.of_plain (Plain.of_allBlank hblanks))
  have hstart : ((field ++ blanks).getLast?.map isBlank).getD true = true := by
    rw [List.getLast?_append_of_ne_nil _ hne, List.getLast?_eq_some_getLast hne]
    exact hblanks _ (List.getLast_mem hne)
  have htag : before? true (literal ++ behind) = some [] := by
    have hisTag := isTag_iff.mpr ⟨literal, behind, hliteral, hbehind, rfl⟩
    cases hcons : literal ++ behind with
    | nil =>
        rw [hcons] at hisTag
        exact nomatch hisTag
    | cons c t =>
        rw [hcons] at hisTag
        rw [before?, hisTag]
        rfl
  rw [strip, before?_append hfront, hstart, htag]
  show Text.trim (field ++ blanks ++ []) = Text.trim field
  rw [List.append_nil]
  exact Text.trim_append_blanks hblanks field

variable {margin : Text}

/-- Without a tag the field is what stands between the outer blanks. -/
theorem strip_untagged (hmargin : Text.AllBlank margin) (hplain : Plain field)
    (hsolid : Text.Solid field) (hbehind : Text.AllBlank behind) :
    strip (margin ++ field ++ behind) = field := by
  have hall : Plain (margin ++ field ++ behind) :=
    ((Plain.of_allBlank hmargin).append hplain).append (Plain.of_allBlank hbehind)
  rw [strip_of_unquoted (.of_plain hall)]
  exact Text.trim_append hmargin hsolid hbehind

/-- With a tag behind a blank the field is what stands in front of the tag. -/
theorem strip_tagged (hmargin : Text.AllBlank margin) (hplain : Plain field)
    (hsolid : Text.Solid field) (htag : rawQuote ∉ t) (hbehind : Text.AllBlank behind) :
    strip (margin ++ field ++ [' '] ++ (rawString t ++ behind)) = field := by
  have hall : Plain (margin ++ field) := (Plain.of_allBlank hmargin).append hplain
  have htrim : Text.trim (margin ++ field ++ []) = field := Text.trim_append hmargin hsolid nofun
  rw [List.append_nil] at htrim
  rw [strip_literal (.of_plain hall) (List.cons_ne_nil _ _) (by decide) (.raw htag) hbehind, htrim]

/-- Blank text is a field without anything. -/
theorem strip_of_allBlank (h : Text.AllBlank t) : strip t = [] := by
  rw [strip_of_unquoted (.of_plain (Plain.of_allBlank h))]
  exact Text.trim_of_allBlank h

/-! ## Outer blanks -/

/-- The quote that closes a literal is no blank. -/
theorem IsLiteral.last_not_isBlank (h : IsLiteral literal) :
    ∃ inside c, literal = inside ++ [c] ∧ isBlank c = false := by
  cases h with
  | @raw inside _ => exact ⟨rawQuote :: inside, rawQuote, rfl, by decide⟩
  | @interpreted inside _ => exact ⟨'"' :: inside, '"', rfl, by decide⟩

/-- Blanks behind a tag belong to it. -/
theorem isTag_append_blanks (h : Text.AllBlank blanks) (t : Text) :
    isTag (t ++ blanks) = isTag t := by
  rw [Bool.eq_iff_iff, isTag_iff, isTag_iff]
  constructor
  · rintro ⟨literal, behind, hliteral, hbehind, heq⟩
    rcases List.append_eq_append_iff.mp heq with ⟨more, hlit, hmore⟩ | ⟨more, rfl, hmore⟩
    · -- the literal ends with a quote, so that it takes no blank behind the text
      obtain ⟨inside, c, rfl, hc⟩ := hliteral.last_not_isBlank
      cases List.eq_nil_or_concat more with
      | inl hnil =>
          subst hnil
          rw [List.append_nil] at hlit
          exact ⟨_, [], hliteral, nofun, by rw [List.append_nil, hlit]⟩
      | inr hconcat =>
          obtain ⟨front, d, rfl⟩ := hconcat
          have hcd : c = d := by
            rw [List.concat_eq_append, ← List.append_assoc] at hlit
            exact (List.append_singleton_inj.mp hlit).2
          have hd : isBlank d = true := by
            refine h d ?_
            rw [hmore]
            simp
          rw [hcd, hd] at hc
          exact nomatch hc
    · refine ⟨literal, more, hliteral, fun c hc => hbehind c ?_, rfl⟩
      rw [hmore]
      exact List.mem_append_left _ hc
  · rintro ⟨literal, behind, hliteral, hbehind, rfl⟩
    refine ⟨literal, behind ++ blanks, hliteral, fun c hc => ?_, List.append_assoc _ _ _⟩
    exact (List.mem_append.mp hc).elim (hbehind c) (h c)

theorem before?_append_blanks (h : Text.AllBlank blanks) (t : Text) :
    ∀ mayStart, before? mayStart (t ++ blanks) = before? mayStart t := by
  induction t with
  | nil => exact before?_of_unquoted (.of_plain (Plain.of_allBlank h))
  | cons c t ih =>
      intro mayStart
      rw [List.cons_append, before?, before?, ← List.cons_append, isTag_append_blanks h, ih]

/-- Blanks at its two ends make no difference to a field. -/
theorem strip_trim (t : Text) : strip (Text.trim t) = strip t := by
  obtain ⟨margin, behind, hmargin, hbehind, ht⟩ := Text.exists_trim t
  have hstart : (margin.getLast?.map isBlank).getD true = true := by
    cases hlast : margin.getLast? with
    | none => rfl
    | some c => exact hmargin c (List.mem_of_getLast? hlast)
  -- a blank may stand in front of a tag, and so a tag may start where the margin ended
  have hbefore : before? true t = (before? true (Text.trim t)).map (margin ++ ·) := by
    conv_lhs => rw [ht]
    rw [before?_append (.of_plain (Plain.of_allBlank hmargin)), hstart, before?_append_blanks hbehind]
  rw [strip, strip, hbefore]
  cases before? true (Text.trim t) with
  | none =>
      show Text.trim (Text.trim t) = Text.trim t
      exact Text.trim_trim t
  | some front =>
      show Text.trim front = Text.trim (margin ++ front)
      rw [Text.trim, Text.trim, Text.trimLeft_append hmargin]

end GoLayout.Tag

namespace GoLayout.FieldLine

variable {field blanks literal behind : Text}

/-- Blanks at the two ends of a line make no difference to what it declares. -/
theorem classify_trim (t : Text) : classify (Text.trim t) = classify t := by
  rw [classify, classify, Tag.strip_trim]

theorem records_trim (t : Text) : records (Text.trim t) = records t := by
  rw [records, records, classify_trim, Tag.strip_trim]

/-- A tag, whatever stands in it, is no part of a field: the field is what stands in front of it
    without outer blanks, and it is read as it is without the tag. -/
theorem classify_tagged (hfield : Tag.Unquoted field) (hne : blanks ≠ [])
    (hblanks : Text.AllBlank blanks) (hliteral : Tag.IsLiteral literal)
    (hbehind : Text.AllBlank behind) :
    Tag.strip (field ++ blanks ++ (literal ++ behind)) = Text.trim field ∧
      classify (field ++ blanks ++ (literal ++ behind)) = classify field := by
  have hstrip := Tag.strip_literal hfield hne hblanks hliteral hbehind
  refine ⟨hstrip, ?_⟩
  rw [classify, classify, hstrip, Tag.strip_of_unquoted hfield]

/-- A tag with escaped quotes, blanks and a raw string in it, which by itself would be one. -/
theorem classify_tagged_tagInTag :
    Tag.Unquoted "\ta, B int".toList ∧ Tag.IsLiteral "\"x:\\\"y\\\" `z`\"".toList ∧
      Tag.strip "\ta, B int \t\"x:\\\"y\\\" `z`\" ".toList = "a, B int".toList ∧
      classify "\ta, B int \t\"x:\\\"y\\\" `z`\" ".toList = classify "\ta, B int".toList := by
  have hliteral : Tag.IsLiteral ('"' :: ("x:\\\"y\\\" `z`".toList ++ ['"'])) :=
    .interpreted (by decide)
  have hfield : Tag.Unquoted "\ta, B int".toList :=
    .of_plain (by decide)
  have hblanks : Text.AllBlank " \t".toList := Text.isBlankText_iff.mp rfl
  have hbehind : Text.AllBlank " ".toList := Text.isBlankText_iff.mp rfl
  obtain ⟨hstrip, hclassify⟩ :=
    classify_tagged hfield (List.cons_ne_nil _ _) hblanks hliteral hbehind
  exact ⟨hfield, hliteral, hstrip, hclassify⟩

end GoLayout.FieldLine

import CrateSafety.Proofs.WrittenField

/-!
# Renaming of words in prose

A line is cut into words and the characters between them in one way only. New names in the place of its words
are words of the new line again, so that renaming them back restores the line. A word next to a dot needs care:
renamed to `self` it takes up what follows the dot as a member, and a member of a renamed `self` falls apart
into characters. Renaming also keeps blanks as they are, which matters because a line of prose is kept with its
blanks reduced.
-/

namespace CrateSafety

namespace Text

theorem isBlank_of_isWordChar {c : Char} (h : isWordChar c = true) : isBlank c = false :=
  isBlank_of_table (fun _ hname => isBlank_of_isNameRest hname) (by decide +kernel) h

/-- Whether blanks are single spaces with ink on both sides, given whether ink stands before the text. -/
def TidyAfter (ink : Bool) : List Char → Prop
  | [] => ink = true
  | c :: rest => if isBlank c then c = ' ' ∧ ink = true ∧ TidyAfter false rest else TidyAfter true rest

/-- Text without blanks is tidy whatever stands before it. -/
theorem tidyAfter_append {ink : Bool} {piece rest : List Char} (hne : piece ≠ [])
    (hink : ∀ c ∈ piece, isBlank c = false) : TidyAfter ink (piece ++ rest) ↔ TidyAfter true rest := by
  induction piece generalizing ink with
  | nil => exact absurd rfl hne
  | cons c more ih =>
    obtain ⟨hc, hmore⟩ := List.forall_mem_cons.mp hink
    rw [List.cons_append, TidyAfter, hc, if_neg Bool.false_ne_true]
    by_cases hempty : more = []
    · rw [hempty, List.nil_append]
    · exact ih hempty hmore

theorem inked_of_mem_cutAt {current cs piece : List Char} (hcurrent : ∀ c ∈ current, isBlank c = false)
    (h : piece ∈ cutAt isBlank current cs) : ∀ c ∈ piece, isBlank c = false := by
  induction cs generalizing current with
  | nil =>
    rw [cutAt, List.mem_singleton] at h
    rw [h]
    simpa using hcurrent
  | cons d rest ih =>
    rw [cutAt] at h
    split at h
    case isTrue =>
      rcases List.mem_cons.mp h with rfl | h
      · simpa using hcurrent
      · exact ih (by simp) h
    case isFalse hd => exact ih (List.forall_mem_cons.mpr ⟨by simpa using hd, hcurrent⟩) h

/-- Joining the pieces of a tidy text gives the text. -/
theorem join_cutAt {current cs : List Char} (h : TidyAfter (!current.isEmpty) cs) :
    join [' '] ((cutAt isBlank current cs).filter fun w => !w.isEmpty) = current.reverse ++ cs := by
  induction cs generalizing current with
  | nil =>
    have hcurrent : current ≠ [] := by simpa [TidyAfter] using h
    simp [cutAt, join, hcurrent]
  | cons c rest ih =>
    rw [TidyAfter] at h
    rw [cutAt]
    split
    case isTrue hblank =>
      rw [if_pos hblank] at h
      obtain ⟨rfl, hink, hrest⟩ := h
      have hcurrent : current ≠ [] := by simpa using hink
      have hjoin := @ih [] hrest
      rw [List.reverse_nil, List.nil_append] at hjoin
      rw [List.filter_cons_of_pos (by simpa using hcurrent)]
      cases hpieces : (cutAt isBlank [] rest).filter fun w => !w.isEmpty with
      | nil =>
        rw [hpieces, join] at hjoin
        rw [← hjoin] at hrest
        cases hrest
      | cons piece more =>
        rw [hpieces] at hjoin
        rw [join, hjoin, List.append_assoc]
        · rfl
        · simp
    case isFalse hblank =>
      rw [if_neg hblank] at h
      rw [ih (by simpa using h)]
      simp

/-- Pieces joined by single spaces are tidy. -/
theorem tidyAfter_join {pieces : List (List Char)} (hne : pieces ≠ [])
    (hpieces : ∀ w ∈ pieces, w ≠ [] ∧ ∀ c ∈ w, isBlank c = false) : TidyAfter false (join [' '] pieces) := by
  induction pieces with
  | nil => exact absurd rfl hne
  | cons w more ih =>
    obtain ⟨⟨hw, hink⟩, hmore⟩ := List.forall_mem_cons.mp hpieces
    cases more with
    | nil =>
      rw [join, ← List.append_nil w, tidyAfter_append hw hink]
      rfl
    | cons next rest =>
      rw [join, List.append_assoc, tidyAfter_append hw hink]
      · exact ⟨rfl, rfl, ih (by simp) hmore⟩
      · simp

end Text

namespace Prose

/-- A line that is kept is empty, or its blanks are single spaces between ink. -/
def IsTidy (line : List Char) : Prop := line = [] ∨ Text.TidyAfter false line

theorem clean_of_isTidy {line : List Char} (h : IsTidy line) : clean line = line := by
  rcases h with rfl | h
  · rfl
  · exact @Text.join_cutAt [] line h

theorem isTidy_clean (line : List Char) : IsTidy (clean line) := by
  by_cases hempty : Text.words line = []
  · exact .inl (by rw [clean, hempty, Text.join])
  · refine .inr (Text.tidyAfter_join hempty fun w hw => ?_)
    obtain ⟨hmem, hw⟩ := List.mem_filter.mp hw
    exact ⟨by simpa using hw, Text.inked_of_mem_cutAt (by simp) hmem⟩

theorem IsMemberName.ne_nil {name : List Char} (h : IsMemberName name) : name ≠ [] := by
  obtain ⟨c, rest, rfl, -⟩ := h
  exact List.cons_ne_nil c rest

theorem IsMemberName.isBlank {name : List Char} (h : IsMemberName name) :
    ∀ c ∈ name, Text.isBlank c = false :=
  fun c hc => Text.isBlank_of_isWordChar (h.isWordChar c hc)

/-- No word starts right after a name. -/
theorem IsMemberName.startsAfter_getLast? {name : List Char} (h : IsMemberName name) :
    startsAfter name.getLast? = false := by
  cases hlast : name.getLast? with
  | none => exact absurd (List.getLast?_eq_none_iff.mp hlast) h.ne_nil
  | some c => exact startsAfter_of_isWordChar (h.isWordChar c (List.mem_of_getLast? hlast))

/-- A line cut into segments, given the character before it. -/
inductive Cut : Option Char → List Char → List Segment → Prop where
  | nil {previous : Option Char} : Cut previous [] []
  /-- A word that is not `self` with a member. -/
  | word {previous : Option Char} {word after : List Char} {segments : List Segment}
      (starts : startsAfter previous = true) (named : IsMemberName word) (ends : Ends after)
      (plain : selfMember? (word ++ after) = none) (rest : Cut word.getLast? after segments) :
      Cut previous (word ++ after) (.word word none :: segments)
  /-- `self` with a member. -/
  | member {previous : Option Char} {member after : List Char} {segments : List Segment}
      (starts : startsAfter previous = true) (named : IsMemberName member) (ends : Ends after)
      (rest : Cut member.getLast? after segments) :
      Cut previous (['s', 'e', 'l', 'f', '.'] ++ (member ++ after))
        (.word ['s', 'e', 'l', 'f'] (some member) :: segments)
  /-- A character at which no word starts. -/
  | between {previous : Option Char} {c : Char} {line : List Char} {segments : List Segment}
      (apart : (startsAfter previous && Text.isNameStart c) = false) (rest : Cut (some c) line segments) :
      Cut previous (c :: line) (.between c :: segments)

section Cut

variable {previous : Option Char} {line : List Char} {parts : List Segment}

/-- Every line is cut as the segments say. -/
theorem cut_segmentsAfter {n : Nat} (hn : line.length ≤ n) :
    Cut previous line (segmentsAfter n previous line) := by
  induction n generalizing previous line with
  | zero =>
    obtain rfl : line = [] := List.length_eq_zero_iff.mp (Nat.le_zero.mp hn)
    exact .nil
  | succ n ih =>
    cases line with
    | nil => exact .nil
    | cons c rest =>
      have hrest : rest.length ≤ n := Nat.le_of_succ_le_succ hn
      rw [segmentsAfter]
      split
      case isTrue hstart =>
        rw [Bool.and_eq_true] at hstart
        split
        case h_1 member after hself =>
          obtain ⟨hline, hname, hends⟩ := selfMember?_eq_some_iff.mp hself
          rw [hline]
          exact .member hstart.1 hname hends (ih (length_after_le hself hn))
        case h_2 hself =>
          have hsplit : c :: rest = (c :: rest.takeWhile Text.isWordChar) ++ rest.dropWhile Text.isWordChar := by
            rw [List.cons_append, List.takeWhile_append_dropWhile]
          have hname : IsMemberName (c :: rest.takeWhile Text.isWordChar) :=
            ⟨c, _, rfl, hstart.2, fun d hd => List.mem_takeWhile_imp hd⟩
          rw [hsplit] at hself ⊢
          exact .word hstart.1 hname (ends_dropWhile rest) hself
            (ih ((List.length_dropWhile_le Text.isWordChar rest).trans hrest))
      case isFalse hbetween => exact .between (Bool.eq_false_iff.mpr hbetween) (ih hrest)

/-- A line is cut in one way only. -/
theorem Cut.eq_segmentsAfter {n : Nat} (h : Cut previous line parts) (hn : line.length ≤ n) :
    segmentsAfter n previous line = parts := by
  induction h generalizing n with
  | nil => cases n <;> rfl
  | @word previous word after segments starts named ends plain _ ih =>
    obtain ⟨c, more, rfl, hstart, hmore⟩ := named
    rw [List.cons_append] at plain hn ⊢
    cases n with
    | zero => cases hn
    | succ n =>
      rw [List.length_cons, List.length_append] at hn
      obtain ⟨htake, hdrop⟩ := cut_word hmore ends
      rw [segmentsAfter, starts, hstart, plain]
      dsimp only
      rw [Bool.and_self, if_pos rfl, htake, hdrop, ih (by omega)]
  | @member previous member after segments starts named ends _ ih =>
    have hself := selfMember?_eq_some_iff.mpr ⟨rfl, named, ends⟩
    have hstart : Text.isNameStart 's' = true := by decide
    rw [List.cons_append] at hself hn ⊢
    cases n with
    | zero => cases hn
    | succ n =>
      rw [segmentsAfter, starts, hstart, hself]
      dsimp only
      rw [Bool.and_self, if_pos rfl, ih (length_after_le hself hn)]
  | @between previous c line segments apart _ ih =>
    cases n with
    | zero => cases hn
    | succ n => rw [segmentsAfter, apart, if_neg Bool.false_ne_true, ih (Nat.le_of_succ_le_succ hn)]

theorem Cut.unique {others : List Segment} (h : Cut previous line parts) (h' : Cut previous line others) :
    parts = others := by
  rw [← h.eq_segmentsAfter le_rfl, h'.eq_segmentsAfter le_rfl]

/-- What follows a character that starts no word stands between words up to the end of its word. -/
theorem Cut.of_run {piece after : List Char} (hpiece : ∀ c ∈ piece, Text.isWordChar c = true)
    (hprevious : startsAfter previous = false) (h : Cut (piece.getLast?.or previous) after parts) :
    Cut previous (piece ++ after) (piece.map .between ++ parts) := by
  induction piece generalizing previous with
  | nil => exact h
  | cons c more ih =>
    obtain ⟨hc, hmore⟩ := List.forall_mem_cons.mp hpiece
    refine .between (by rw [hprevious, Bool.false_and]) (ih hmore (startsAfter_of_isWordChar hc) ?_)
    rw [List.getLast?_cons] at h
    cases hlast : more.getLast? with
    | none => rwa [hlast] at h
    | some d => rwa [hlast] at h

/-- A member whose object is not `self` stands between words. -/
theorem Cut.of_dot {member after : List Char} (hname : IsMemberName member)
    (h : Cut member.getLast? after parts) :
    Cut previous ('.' :: (member ++ after)) (.between '.' :: (member.map .between ++ parts)) := by
  refine .between (by rw [show Text.isNameStart '.' = false from by decide, Bool.and_false]) ?_
  refine .of_run hname.isWordChar (by decide) ?_
  cases hlast : member.getLast? with
  | none => exact absurd (List.getLast?_eq_none_iff.mp hlast) hname.ne_nil
  | some c => rwa [hlast] at h

/-- The segments make up the line. -/
theorem Cut.flatMap_renamed (h : Cut previous line parts) : parts.flatMap (Segment.renamed [] []) = line := by
  induction h with
  | nil => rfl
  | word _ _ _ _ _ ih =>
    rw [List.flatMap_cons, ih]
    rfl
  | member _ _ _ _ ih =>
    rw [List.flatMap_cons, ih]
    simp [Segment.renamed]
  | between _ _ ih =>
    rw [List.flatMap_cons, ih]
    rfl

/-- The words of a line stand in it. -/
theorem Cut.root_isInfix (h : Cut previous line parts) {root : List Char} {member : Option (List Char)}
    (hmem : .word root member ∈ parts) : root <:+: line := by
  induction h with
  | nil => cases hmem
  | word _ _ _ _ _ ih =>
    rcases List.mem_cons.mp hmem with heq | hmem
    · cases heq
      exact (List.prefix_append _ _).isInfix
    · exact (ih hmem).trans (List.suffix_append _ _).isInfix
  | @member _ member after _ _ _ _ _ ih =>
    rcases List.mem_cons.mp hmem with heq | hmem
    · cases heq
      exact ⟨[], '.' :: (member ++ after), rfl⟩
    · exact (ih hmem).trans ((List.suffix_append _ _).trans (List.suffix_append _ _)).isInfix
  | between _ _ ih =>
    rcases List.mem_cons.mp hmem with heq | hmem
    · cases heq
    · exact (ih hmem).trans (List.suffix_cons _ _).isInfix

end Cut

/-- A segment gets a new name that is not its own and that leads back. -/
def Segment.Returns (there back : String → Option String) : Segment → Prop
  | .between _ => True
  | .word root _ => ∃ new : String, there (String.ofList root) = some new ∧
      back new = some (String.ofList root) ∧ IsMemberName new.toList ∧ new ≠ String.ofList root

section Renaming

variable {there back : String → Option String} {previous : Option Char} {line : List Char}
  {parts : List Segment}

theorem Segment.renamedBy_word {root : List Char} {new : String} (h : there (String.ofList root) = some new) :
    (Segment.word root none).renamedBy there = new.toList := by
  rw [Segment.renamedBy, h]
  rfl

theorem Segment.renamedBy_member {root member : List Char} {new : String}
    (h : there (String.ofList root) = some new) :
    (Segment.word root (some member)).renamedBy there = new.toList ++ '.' :: member := by
  rw [Segment.renamedBy, h]
  rfl

/-- A text that does not go on with a character of words does not do so after a renaming. -/
theorem Cut.ends_renamedBy (h : Cut previous line parts) (hends : Ends line) :
    Ends (parts.flatMap (Segment.renamedBy there)) := by
  cases h with
  | nil => exact hends
  | word _ named =>
    obtain ⟨c, more, rfl, hstart, -⟩ := named
    have hc := Text.isWordChar_of_isNameStart hstart
    rw [hends c rfl] at hc
    cases hc
  | member =>
    have hc : Text.isWordChar 's' = false := hends 's' rfl
    exact absurd hc (by decide)
  | between => exact hends

theorem flatMap_between (cs : List Char) : (cs.map .between).flatMap (Segment.renamedBy there) = cs := by
  induction cs with
  | nil => rfl
  | cons c rest ih =>
    rw [List.map_cons, List.flatMap_cons, ih]
    rfl

/-- If the member of `self` is taken by a name, that name is `self`. -/
theorem eq_self_of_selfMember? {name after member rest : List Char} (hname : IsMemberName name)
    (hends : Ends after) (h : selfMember? (name ++ after) = some (member, rest)) :
    name = ['s', 'e', 'l', 'f'] ∧ after = '.' :: (member ++ rest) := by
  obtain ⟨hline, -, -⟩ := selfMember?_eq_some_iff.mp h
  obtain ⟨htake, hdrop⟩ := cut_word hname.isWordChar hends
  have hself : ∀ c ∈ ['s', 'e', 'l', 'f'], Text.isWordChar c = true := by
    exact List.all_eq_true.mp (show (['s', 'e', 'l', 'f'].all Text.isWordChar) = true by decide)
  have hdot : Ends ('.' :: (member ++ rest)) := by
    intro c hc
    cases hc
    decide
  obtain ⟨htake', hdrop'⟩ := cut_word hself hdot
  rw [hline] at htake hdrop
  exact ⟨htake.symm.trans htake', hdrop.symm.trans hdrop'⟩

/-- Renaming a renamed line back restores it. The characters before the two lines need only agree in whether a
word may start after them. -/
theorem Cut.renamed_back (h : Cut previous line parts) (hparts : ∀ part ∈ parts, part.Returns there back) :
    ∀ previous', startsAfter previous' = startsAfter previous →
      ∃ parts', Cut previous' (parts.flatMap (Segment.renamedBy there)) parts' ∧
        parts'.flatMap (Segment.renamedBy back) = line := by
  induction h with
  | nil => exact fun _ _ => ⟨[], .nil, rfl⟩
  | @between previous c line segments apart _ ih =>
    intro previous' hprevious
    obtain ⟨parts', hcut, hback⟩ := ih (List.forall_mem_cons.mp hparts).2 (some c) rfl
    refine ⟨.between c :: parts', .between (by rw [hprevious, apart]) hcut, ?_⟩
    rw [List.flatMap_cons, hback]
    rfl
  | @word previous word after segments starts named ends plain rest ih =>
    intro previous' hprevious
    obtain ⟨⟨new, hthere, hback, hnew, -⟩, hparts⟩ := List.forall_mem_cons.mp hparts
    obtain ⟨parts', hcut, hline⟩ := ih hparts new.toList.getLast?
      (hnew.startsAfter_getLast?.trans named.startsAfter_getLast?.symm)
    have hends : Ends (segments.flatMap (Segment.renamedBy there)) := rest.ends_renamedBy ends
    rw [← String.ofList_toList (s := new)] at hback
    rw [List.flatMap_cons, Segment.renamedBy_word hthere]
    cases hself : selfMember? (new.toList ++ segments.flatMap (Segment.renamedBy there)) with
    | none =>
      refine ⟨.word new.toList none :: parts', .word (by rw [hprevious, starts]) hnew hends hself hcut, ?_⟩
      rw [List.flatMap_cons, hline, Segment.renamedBy_word hback, String.toList_ofList]
    | some found =>
      -- the new name is `self`, and what follows the dot becomes a member of it
      obtain ⟨member, remaining⟩ := found
      obtain ⟨-, hmember, hstop⟩ := selfMember?_eq_some_iff.mp hself
      obtain ⟨hname, hafter⟩ := eq_self_of_selfMember? hnew hends hself
      have hremaining := @cut_segmentsAfter member.getLast? remaining _ le_rfl
      rw [hafter] at hcut
      rw [hcut.unique (.of_dot hmember hremaining)] at hline
      rw [hname] at hback
      rw [hname, hafter]
      refine ⟨_, .member (by rw [hprevious, starts]) hmember hstop hremaining, ?_⟩
      rw [List.flatMap_cons, List.flatMap_append, flatMap_between] at hline
      rw [← hline, List.flatMap_cons, Segment.renamedBy_member hback, String.toList_ofList]
      simp [Segment.renamedBy]
  | @member previous member after segments starts named ends rest ih =>
    intro previous' hprevious
    obtain ⟨⟨new, hthere, hback, hnew, hother⟩, hparts⟩ := List.forall_mem_cons.mp hparts
    obtain ⟨parts', hcut, hline⟩ := ih hparts member.getLast? rfl
    rw [← String.ofList_toList (s := new)] at hback
    have hdot : Ends ('.' :: (member ++ segments.flatMap (Segment.renamedBy there))) := by
      intro c hc
      cases hc
      decide
    have hplain : selfMember? (new.toList ++ '.' :: (member ++ segments.flatMap (Segment.renamedBy there))) =
        none := by
      by_contra hsome
      obtain ⟨found, hfound⟩ := Option.ne_none_iff_exists'.mp hsome
      have hname := (eq_self_of_selfMember? hnew hdot hfound).1
      exact hother (by rw [← hname, String.ofList_toList])
    rw [List.flatMap_cons, Segment.renamedBy_member hthere, List.append_assoc, List.cons_append]
    refine ⟨_, .word (by rw [hprevious, starts]) hnew hdot hplain (.of_dot named hcut), ?_⟩
    rw [List.flatMap_cons, List.flatMap_cons, List.flatMap_append, flatMap_between, hline,
      Segment.renamedBy_word hback, String.toList_ofList]
    rfl

/-- Renaming keeps blanks as they are. -/
theorem Cut.tidyAfter_renamedBy (h : Cut previous line parts)
    (hparts : ∀ part ∈ parts, part.Returns there back) {ink : Bool} :
    Text.TidyAfter ink (parts.flatMap (Segment.renamedBy there)) ↔ Text.TidyAfter ink line := by
  induction h generalizing ink with
  | nil => exact Iff.rfl
  | word _ named _ _ _ ih =>
    obtain ⟨⟨new, hthere, -, hnew, -⟩, hparts⟩ := List.forall_mem_cons.mp hparts
    rw [List.flatMap_cons, Segment.renamedBy_word hthere,
      Text.tidyAfter_append hnew.ne_nil hnew.isBlank, Text.tidyAfter_append named.ne_nil named.isBlank]
    exact ih hparts
  | @member _ member after segments _ named _ _ ih =>
    obtain ⟨⟨new, hthere, -, hnew, -⟩, hparts⟩ := List.forall_mem_cons.mp hparts
    have hdot : ∀ c ∈ '.' :: member, Text.isBlank c = false :=
      List.forall_mem_cons.mpr ⟨by decide, named.isBlank⟩
    have hself : ∀ c ∈ ['s', 'e', 'l', 'f', '.'], Text.isBlank c = false := by
      have hall : (['s', 'e', 'l', 'f', '.'].all fun c => !Text.isBlank c) = true := by decide
      simpa only [List.all_eq_true, Bool.not_eq_true'] using hall
    rw [List.flatMap_cons, Segment.renamedBy_member hthere, List.append_assoc,
      Text.tidyAfter_append hnew.ne_nil hnew.isBlank, Text.tidyAfter_append (List.cons_ne_nil _ _) hdot,
      Text.tidyAfter_append (List.cons_ne_nil _ _) hself, Text.tidyAfter_append named.ne_nil named.isBlank]
    exact ih hparts
  | between _ _ ih =>
    rw [List.flatMap_cons, Segment.renamedBy, List.singleton_append, Text.TidyAfter, Text.TidyAfter,
      ih (List.forall_mem_cons.mp hparts).2, ih (List.forall_mem_cons.mp hparts).2]

theorem isTidy_renamedBy (h : IsTidy line) (hparts : ∀ part ∈ segments line, part.Returns there back) :
    IsTidy ((segments line).flatMap (Segment.renamedBy there)) := by
  rcases h with rfl | h
  · exact .inl rfl
  · exact .inr (((cut_segmentsAfter le_rfl).tidyAfter_renamedBy hparts).mpr h)

/-- Renaming back restores a line. -/
theorem renamedBy_renamedBy (hparts : ∀ part ∈ segments line, part.Returns there back) :
    (segments ((segments line).flatMap (Segment.renamedBy there))).flatMap (Segment.renamedBy back) = line := by
  obtain ⟨parts', hcut, hback⟩ := (cut_segmentsAfter le_rfl).renamed_back hparts none rfl
  rw [← hcut.eq_segmentsAfter le_rfl] at hback
  exact hback

end Renaming

end Prose

namespace Atom

theorem ofProse_of_isTidy_text {line : List Char} (h : Prose.IsTidy line) :
    (ofProse line).text.toList = line := by
  simp [ofProse, Prose.clean_of_isTidy h]

/-- A line with its blanks reduced is the same requirement. -/
theorem ofProse_clean (line : List Char) : ofProse (Prose.clean line) = ofProse line := by
  rw [ofProse, ofProse, Prose.clean_of_isTidy (Prose.isTidy_clean line)]

/-- An atom of prose is read from its own text. -/
theorem ofProse_text (line : List Char) : ofProse (ofProse line).text.toList = ofProse line := by
  simp only [ofProse, String.toList_ofList]
  exact ofProse_clean line

/-- Renaming an atom of prose replaces the words of its text. -/
theorem rename_ofProse {a : Atom} {line : List Char} {pairs : List (String × String)} (ha : a = ofProse line)
    (hn : (pairs.map (·.1)).Nodup) :
    a.rename ⟨pairs, []⟩ = .ok (ofProse ((Prose.segments a.text.toList).flatMap
      (Prose.Segment.renamedBy fun name => pairs.lookup name))) := by
  have hread : a.IsRead := .inr ⟨line, ha⟩
  have hsource : ∃ words, a.source = .prose words := ⟨_, by rw [ha]; rfl⟩
  obtain ⟨words, hsource⟩ := hsource
  have hrenamed : (Prose.segments a.text.toList).flatMap (Prose.Segment.renamed (a.bearing pairs) []) =
      (Prose.segments a.text.toList).flatMap (Prose.Segment.renamedBy fun name => pairs.lookup name) := by
    refine List.flatMap_congr fun segment hsegment => renamed_bearing hn ?_
    rintro root member rfl
    exact hread.words hsource root member hsegment
  rw [← hrenamed, rename]
  dsimp only
  rw [hsource]
  split
  case isTrue hnone =>
    rw [Bool.and_eq_true, List.isEmpty_iff] at hnone
    rw [bearing, hnone.1, Prose.segments, (Prose.cut_segmentsAfter le_rfl).flatMap_renamed, ha, ofProse_text]
    rfl
  case isFalse => rfl

end Atom

end CrateSafety

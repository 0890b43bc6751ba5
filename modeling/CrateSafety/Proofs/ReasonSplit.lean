import CrateSafety.Proofs.Legibility
import CrateSafety.Proofs.OperandText

/-!
# Reasons of claims

Where a clause is cut into its predicate and its reason. The word for a reason is searched in the lowered
clause and cut out of the clause itself, and one capital lowers to two characters, so the cut moves by one
character for each of these capitals before the word. Without them the two parts are those that were written,
and a justification claims what its clauses say.
-/

namespace CrateSafety

namespace Text

/-- The capital that lowers to two characters. -/
def dottedI : Char := Char.ofNat 0x130

theorem eq_dottedI_iff {c : Char} : c = dottedI ↔ c.toNat = 0x130 :=
  Char.toNat_inj.symm

/-- A text starts and ends in characters that are not blank. -/
def Inked (cs : List Char) : Prop :=
  (∃ c ∈ cs.head?, isBlank c = false) ∧ EndsInInk cs

theorem Inked.ne_nil {cs : List Char} (h : Inked cs) : cs ≠ [] := h.2.ne_nil

theorem Inked.dropWhile {cs : List Char} (h : Inked cs) : cs.dropWhile isBlank = cs := by
  obtain ⟨c, hc, hink⟩ := h.1
  obtain ⟨rest, rfl⟩ := List.head?_eq_some_iff.mp hc
  exact List.dropWhile_cons_of_neg (by simp [hink])

theorem Inked.trim {cs : List Char} (h : Inked cs) : trim cs = cs := by
  obtain ⟨c, hc, hink⟩ := h.2
  obtain ⟨front, rfl⟩ := List.getLast?_eq_some_iff.mp hc
  rw [Text.trim, h.dropWhile, dropEndWhile_append_cons hink]
  rfl

theorem length_trim_le (cs : List Char) : (trim cs).length ≤ cs.length := by
  have hend : ∀ ds : List Char, (dropEndWhile isBlank ds).length ≤ ds.length := by
    intro ds
    have hdrop := (List.dropWhile_sublist isBlank (l := ds.reverse)).length_le
    simpa [dropEndWhile] using hdrop
  exact (hend _).trans (List.dropWhile_sublist _).length_le

theorem isSome_dropStart?_iff {start cs : List Char} : (dropStart? start cs).isSome = true ↔ start <+: cs := by
  rw [Option.isSome_iff_exists, List.IsPrefix]
  exact exists_congr fun rest => dropStart?_eq_some_iff.trans eq_comm

/-- A search stops at an occurrence before which none starts. -/
theorem find?_append {pattern front back : List Char} (hne : pattern ≠ []) (hback : pattern <+: back)
    (hfront : ∀ rest, rest <:+ front → rest ≠ [] → ¬ pattern <+: rest ++ back) :
    find? pattern (front ++ back) = some front.length := by
  induction front with
  | nil =>
    cases back with
    | nil => exact absurd (List.prefix_nil.mp hback) hne
    | cons c back => rw [List.nil_append, find?, if_pos (isSome_dropStart?_iff.mpr hback)]; rfl
  | cons c front ih =>
    have hhere := hfront (c :: front) List.suffix_rfl (List.cons_ne_nil _ _)
    have hlater := ih fun rest hrest => hfront rest (hrest.trans (List.suffix_cons _ _))
    rw [List.cons_append] at hhere ⊢
    rw [find?, if_neg (mt isSome_dropStart?_iff.mp hhere), hlater]
    rfl

theorem cutAt_append {p : Char → Bool} {piece : List Char} (h : ∀ c ∈ piece, p c = false)
    (current rest : List Char) : cutAt p current (piece ++ rest) = cutAt p (piece.reverse ++ current) rest := by
  induction piece generalizing current with
  | nil => rfl
  | cons c piece ih =>
    obtain ⟨hc, hpiece⟩ := List.forall_mem_cons.mp h
    rw [List.cons_append, cutAt, if_neg (by simp [hc]), ih hpiece]
    simp

/-- Pieces joined by a character of the class, and free of the class themselves, are found again. -/
theorem splitAt_join {p : Char → Bool} {separator : Char} (hseparator : p separator = true)
    {pieces : List (List Char)} (hne : pieces ≠ []) (h : ∀ piece ∈ pieces, ∀ c ∈ piece, p c = false) :
    splitAt p (join [separator] pieces) = pieces := by
  induction pieces with
  | nil => exact absurd rfl hne
  | cons piece rest ih =>
    obtain ⟨hpiece, hrest⟩ := List.forall_mem_cons.mp h
    cases rest with
    | nil =>
      have hcut := cutAt_append hpiece [] []
      rw [List.append_nil, List.append_nil] at hcut
      simp [splitAt, join, hcut, cutAt]
    | cons next others =>
      have hothers := ih (List.cons_ne_nil _ _) hrest
      rw [splitAt] at hothers
      rw [join, List.append_assoc, List.singleton_append, splitAt, cutAt_append hpiece, cutAt, if_pos hseparator,
        hothers]
      · simp
      · exact List.cons_ne_nil _ _

/-- What stands for a character in the lowered text: two characters for the one capital, else one. A character
of ASCII lowers to ASCII, and no other lowers to a letter of the word for a reason. -/
structure Lowers (c : Char) (image : List Char) : Prop where
  length : image.length = if c = dottedI then 2 else 1
  ascii : c.toNat < 128 → image = [c.toLower]
  beyond : 128 ≤ c.toNat → ∀ d ∈ image, d ∉ Claim.because

theorem ofNat_not_mem_because {n : Nat} (h : 128 ≤ n ∨ n = 107) : Char.ofNat n ∉ Claim.because := by
  have hletters : (Claim.because.all fun c => c.toNat != 0 && c.toNat < 128 && c.toNat != 107) = true := rfl
  have hcode : (Char.ofNat n).toNat = n ∨ (Char.ofNat n).toNat = 0 := by
    by_cases hvalid : n.isValidChar
    · exact .inl (congrArg Char.toNat (dif_pos hvalid : Char.ofNat n = Char.ofNatAux n hvalid))
    · exact .inr (congrArg Char.toNat (dif_neg hvalid : Char.ofNat n = Char.ofNat 0))
  intro hmem
  have hn := List.all_eq_true.mp hletters _ hmem
  simp only [Bool.and_eq_true, bne_iff_ne, ne_eq, decide_eq_true_eq] at hn
  omega

/-- The table of lower-case images leads to ASCII only for the Kelvin sign, which lowers to a k. -/
theorem image_of_mem_lowerRuns :
    ∀ run ∈ lowerRuns, 128 ≤ run.2.2.2 ∨ run.2.2.2 = 107 ∧ run.1 = run.2.1 := by
  decide +kernel

theorem lowers_lowerChar (c : Char) : Lowers c (lowerChar c) := by
  unfold lowerChar
  split
  case isTrue hascii =>
    have hc : c ≠ dottedI := fun h => by rw [eq_dottedI_iff.mp h] at hascii; omega
    exact ⟨by simp [hc], fun _ => rfl, fun h => by omega⟩
  case isFalse hascii =>
    split
    case isTrue hdotted =>
      have hc : c = dottedI := eq_dottedI_iff.mpr (beq_iff_eq.mp hdotted)
      refine ⟨by simp [hc], fun h => absurd h hascii, fun _ d hd => ?_⟩
      rcases List.mem_pair.mp hd with rfl | rfl
      · decide
      · exact ofNat_not_mem_because (by omega)
    case isFalse hdotted =>
      have hc : c ≠ dottedI := fun h => hdotted (by simp [eq_dottedI_iff.mp h])
      split
      case h_1 first last step image hfind =>
        have hrun := List.find?_some hfind
        have himage := image_of_mem_lowerRuns _ (List.mem_of_find?_eq_some hfind)
        simp only [Bool.and_eq_true, decide_eq_true_eq] at hrun himage
        refine ⟨by simp [hc], fun h => absurd h hascii, fun _ d hd => ?_⟩
        rw [List.mem_singleton.mp hd]
        exact ofNat_not_mem_because (by omega)
      case h_2 =>
        refine ⟨by simp [hc], fun h => absurd h hascii, fun hbeyond d hd => ?_⟩
        rw [List.mem_singleton.mp hd, ← Char.ofNat_toNat c]
        exact ofNat_not_mem_because (.inl hbeyond)

theorem exists_lowerAfter_cons (inWord : Bool) (c : Char) (rest : List Char) :
    ∃ image next, lowerAfter inWord (c :: rest) = image ++ lowerAfter next rest ∧ Lowers c image := by
  refine ⟨_, _, rfl, ?_⟩
  split
  case isTrue hsigma =>
    have hcode : c.toNat = 0x3a3 := beq_iff_eq.mp hsigma
    have hc : c ≠ dottedI := fun h => by rw [eq_dottedI_iff.mp h] at hcode; omega
    refine ⟨by rw [if_neg hc]; split <;> rfl, fun h => by omega, fun _ d hd => ?_⟩
    split at hd
    all_goals
      rw [List.mem_singleton.mp hd]
      exact ofNat_not_mem_because (by omega)
  case isFalse => exact lowers_lowerChar c

theorem length_lowerAfter (inWord : Bool) (cs : List Char) :
    (lowerAfter inWord cs).length = cs.length + cs.count dottedI := by
  induction cs generalizing inWord with
  | nil => rfl
  | cons c rest ih =>
    obtain ⟨image, next, heq, himage⟩ := exists_lowerAfter_cons inWord c rest
    rw [heq, List.length_append, ih, himage.length, List.length_cons, List.count_cons]
    by_cases hc : c = dottedI
    · simp only [hc, if_true, beq_self_eq_true]; omega
    · simp only [hc, if_false, beq_iff_eq]; omega

theorem casedNext_append_space (cs rest : List Char) : casedNext (cs ++ ' ' :: rest) = casedNext cs := by
  have hspace : isCaseIgnorable ' ' = false := rfl
  unfold casedNext
  induction cs with
  | nil => rw [List.nil_append, List.dropWhile_cons_of_neg (by simp [hspace])]; rfl
  | cons c cs ih =>
    by_cases hc : isCaseIgnorable c = true
    · rw [List.cons_append, List.dropWhile_cons_of_pos hc, List.dropWhile_cons_of_pos hc, ih]
    · rw [List.cons_append, List.dropWhile_cons_of_neg hc, List.dropWhile_cons_of_neg hc]

/-- Lowering goes word by word: nothing before a space depends on what comes after it. -/
theorem lowerAfter_append_space (inWord : Bool) (cs rest : List Char) :
    lowerAfter inWord (cs ++ ' ' :: rest) = lowerAfter inWord cs ++ ' ' :: lowerAfter false rest := by
  induction cs generalizing inWord with
  | nil => rfl
  | cons c cs ih => simp only [List.cons_append, lowerAfter, casedNext_append_space, ih, List.append_assoc]

theorem lower_because (front back : List Char) :
    lower (front ++ (Claim.because ++ back)) = lower front ++ (Claim.because ++ lower back) := by
  have hword : Claim.because = ' ' :: ("because".toList ++ [' ']) := rfl
  have hletters : lowerAfter false "because".toList = "because".toList := rfl
  rw [hword, lower, List.cons_append, lowerAfter_append_space, List.append_assoc, List.singleton_append,
    lowerAfter_append_space, hletters]
  simp [lower]

end Text

namespace Claim

/-- The word for a reason occurs in a text, in any letter case. -/
def Announces (cs : List Char) : Prop := because <:+: cs.map Char.toLower

instance (cs : List Char) : Decidable (Announces cs) := inferInstanceAs (Decidable (because <:+: _))

/-- Letters of the word at the start of a lowered text were letters of the word before. -/
theorem map_toLower_of_lowerAfter {letters : List Char} (hletters : ∀ c ∈ letters, c ∈ because) {inWord : Bool}
    {cs : List Char} (h : letters <+: Text.lowerAfter inWord cs) : letters <+: cs.map Char.toLower := by
  induction letters generalizing inWord cs with
  | nil => exact List.nil_prefix
  | cons letter letters ih =>
    obtain ⟨hletter, hletters⟩ := List.forall_mem_cons.mp hletters
    cases cs with
    | nil => exact h
    | cons c rest =>
      obtain ⟨image, next, heq, himage⟩ := Text.exists_lowerAfter_cons inWord c rest
      rw [heq] at h
      by_cases hascii : c.toNat < 128
      · rw [himage.ascii hascii, List.singleton_append, List.cons_prefix_cons] at h
        rw [List.map_cons, List.cons_prefix_cons]
        exact ⟨h.1, ih hletters h.2⟩
      · have hlength := himage.length
        cases image with
        | nil => split at hlength <;> simp at hlength
        | cons d image =>
          rw [List.cons_append, List.cons_prefix_cons] at h
          exact absurd (h.1 ▸ hletter) (himage.beyond (by omega) d List.mem_cons_self)

theorem announces_of_lowerAfter {inWord : Bool} {cs : List Char} (h : because <:+: Text.lowerAfter inWord cs) :
    Announces cs := by
  induction cs generalizing inWord with
  | nil => exact h
  | cons c rest ih =>
    obtain ⟨image, next, heq, himage⟩ := Text.exists_lowerAfter_cons inWord c rest
    have hrest : because <:+: Text.lowerAfter next rest → Announces (c :: rest) := fun h => List.infix_cons (ih h)
    obtain ⟨found, hfound, before, hbefore⟩ := List.infix_iff_prefix_suffix.mp h
    rw [heq] at hbefore
    rcases List.append_eq_append_iff.mp hbefore with ⟨start, himage', rfl⟩ | ⟨more, -, hmore⟩
    · cases start with
      | nil => exact hrest hfound.isInfix
      | cons d start =>
        -- the word starts within the image, so this is that of a space
        have hd : d = ' ' := (List.cons_prefix_cons.mp hfound).1.symm
        have hascii : c.toNat < 128 := by
          by_contra hbeyond
          exact himage.beyond (by omega) d (by simp [himage']) (hd ▸ List.mem_cons_self)
        rw [himage.ascii hascii] at himage' heq
        cases before with
        | nil =>
          rw [List.nil_append] at himage'
          rw [← himage', ← heq] at hfound
          exact (map_toLower_of_lowerAfter (fun _ hc => hc) hfound).isInfix
        | cons _ before => simp at himage'
    · exact hrest (List.infix_iff_prefix_suffix.mpr ⟨found, hfound, more, hmore.symm⟩)

/-- Two occurrences of the word overlap in a space at most, so one that starts before another ends by its first
character. -/
theorem because_before_space {rest back : List Char} (hne : rest ≠ [])
    (h : because <+: rest ++ (because ++ back)) : because <+: rest ++ [' '] := by
  have hends : (because.inits.all fun word =>
      word.getLast? != some ' ' || word == [' '] || word == because) = true := rfl
  have hspace : rest ++ [' '] <+: rest ++ (because ++ back) := by
    rw [List.prefix_append_right_inj]
    exact List.cons_prefix_cons.mpr ⟨rfl, List.nil_prefix⟩
  rcases List.prefix_or_prefix_of_prefix h hspace with hword | hword
  · exact hword
  · have hrest := List.all_eq_true.mp hends _ (List.mem_inits _ _ |>.mpr hword)
    simp only [List.getLast?_append, List.getLast?_singleton, Option.some_or, bne_self_eq_false, Bool.false_or,
      Bool.or_eq_true, beq_iff_eq] at hrest
    rcases hrest with hsingle | hwhole
    · exact absurd (by simpa using hsingle) hne
    · exact hwhole ▸ List.prefix_rfl

/-- A predicate and a reason that a clause can give: neither has blanks around it, a line end or a semicolon, and
the word for a reason does not occur before the reason. -/
structure Reasoned where
  predicate : List Char
  reason : List Char
  predicate_inked : Text.Inked predicate
  reason_inked : Text.Inked reason
  one_line : '\n' ∉ predicate ++ reason
  one_clause : ';' ∉ predicate ++ reason
  unannounced : ¬ Announces (predicate ++ [' '])

namespace Reasoned

variable (c : Reasoned)

/-- The clause as it is written. -/
def text : List Char := c.predicate ++ (because ++ c.reason)

/-- By how many characters the predicate gets longer if it is lowered. -/
def shift : Nat := c.predicate.count Text.dottedI

/-- The claim that the clause is meant to make. -/
def claim : Except PredicateError Claim := do
  return ⟨String.ofList c.text, ← claimed c.predicate, String.ofList c.reason⟩

theorem inked_text : Text.Inked c.text := by
  refine ⟨?_, ?_⟩
  · obtain ⟨d, hd, hink⟩ := c.predicate_inked.1
    exact ⟨d, by simp [text, List.head?_append, Option.mem_def.mp hd], hink⟩
  · obtain ⟨d, hd, hink⟩ := c.reason_inked.2
    exact ⟨d, by simp [text, List.getLast?_append, Option.mem_def.mp hd], hink⟩

theorem find?_because : Text.find? because (Text.lower c.text) = some (c.predicate.length + c.shift) := by
  have hfind : Text.find? because (Text.lower c.text) = some (Text.lower c.predicate).length := by
    rw [text, Text.lower_because]
    refine Text.find?_append (List.cons_ne_nil _ _) (List.prefix_append _ _) fun rest hrest hne hearly => ?_
    -- an earlier occurrence would lie in the lowered predicate and the space after it
    have hlowered : Text.lower (c.predicate ++ [' ']) = Text.lower c.predicate ++ [' '] :=
      Text.lowerAfter_append_space false c.predicate []
    have hinfix : because <:+: Text.lower (c.predicate ++ [' ']) := by
      rw [hlowered]
      obtain ⟨before, hbefore⟩ := hrest
      exact List.infix_iff_prefix_suffix.mpr ⟨_, because_before_space hne hearly, before, by simp [← hbefore]⟩
    exact c.unannounced (announces_of_lowerAfter hinfix)
  rw [hfind, Text.lower, Text.length_lowerAfter]
  rfl

theorem split_text : split c.text =
    .ok (Text.trim (c.predicate ++ (because ++ c.reason).take c.shift), Text.trim (c.reason.drop c.shift)) := by
  have hfront : c.text.take (c.predicate.length + c.shift) = c.predicate ++ (because ++ c.reason).take c.shift :=
    List.take_length_add_append _
  have hback : c.text.drop (c.predicate.length + c.shift + because.length) = c.reason.drop c.shift := by
    have hlength : c.predicate.length + c.shift + because.length = (c.predicate ++ because).length + c.shift := by
      rw [List.length_append]
      omega
    rw [hlength, text, ← List.append_assoc]
    exact List.drop_length_add_append _
  rw [split, c.find?_because]
  simp only [cutAt, hfront, hback]
  rfl

theorem split_text_eq_iff : split c.text = .ok (c.predicate, c.reason) ↔ Text.dottedI ∉ c.predicate := by
  rw [c.split_text, ← List.count_eq_zero]
  constructor
  · intro h
    have hreason : Text.trim (c.reason.drop c.shift) = c.reason := (Prod.mk.inj (Except.ok.inj h)).2
    have hle := Text.length_trim_le (c.reason.drop c.shift)
    have hpos := List.length_pos_of_ne_nil c.reason_inked.ne_nil
    rw [hreason, List.length_drop] at hle
    change c.shift = 0
    omega
  · intro h
    have hshift : c.shift = 0 := h
    rw [hshift, List.take_zero, List.append_nil, List.drop_zero, c.predicate_inked.trim, c.reason_inked.trim]

theorem ofLine?_eq_claim {line : List Char} (hline : clause line = c.text) (h : Text.dottedI ∉ c.predicate) :
    ofLine? line = c.claim.map some := by
  have hof : ofLine? line =
      if (clause line).isEmpty then .ok none
      else split (clause line) >>= fun parts =>
        if parts.1.isEmpty then .ok none
        else claimed parts.1 >>= fun atoms =>
          .ok (some ⟨String.ofList (clause line), atoms, String.ofList parts.2⟩) := rfl
  rw [hof, hline, if_neg (mt List.isEmpty_iff.mp c.inked_text.ne_nil), c.split_text_eq_iff.mpr h]
  change (if c.predicate.isEmpty then _ else _) = _
  rw [if_neg (mt List.isEmpty_iff.mp c.predicate_inked.ne_nil), claim]
  cases claimed c.predicate <;> rfl

/-- The clause as an item of a list. -/
def item : List Char := '-' :: ' ' :: c.text

theorem clause_item (h : dropMarker c.text = c.text) : clause c.item = c.text := by
  have hbullet : dropBullet c.item = c.text.dropWhile Text.isBlank := rfl
  rw [clause, hbullet, c.inked_text.dropWhile, h, c.inked_text.trim]

theorem not_mem_item {d : Char} (hd : d ∉ c.predicate ++ c.reason) (hmark : d ≠ '-') (hword : d ∉ because) :
    d ∉ c.item := by
  simp only [List.mem_append, not_or] at hd
  have hspace : d ≠ ' ' := fun h => hword (h ▸ List.mem_cons_self)
  simp [item, text, hd, hmark, hword, hspace]

end Reasoned

end Claim

namespace Justification

/-- The clauses of a justification: its lines without marks, those left out that have nothing else. -/
def clauses (raw : String) : List (List Char) :=
  ((lines raw).map Claim.clause).filter fun clause => !clause.isEmpty

/-- Clauses listed one by one after a header. -/
def listing (header : List Char) (separator : Char) (cs : List Claim.Reasoned) : String :=
  String.ofList (header ++ Text.join [separator] (cs.map Claim.Reasoned.item))

theorem mapM_ofLine? {lines : List (List Char)} {cs : List Claim.Reasoned}
    (h : (lines.map Claim.clause).filter (fun clause => !clause.isEmpty) = cs.map Claim.Reasoned.text)
    (hplain : ∀ c ∈ cs, Text.dottedI ∉ c.predicate) :
    (lines.mapM Claim.ofLine?).map (List.filterMap id) = cs.mapM Claim.Reasoned.claim := by
  induction lines generalizing cs with
  | nil =>
    rw [List.map_nil, List.filter_nil, eq_comm, List.map_eq_nil_iff] at h
    rw [h]
    rfl
  | cons line lines ih =>
    by_cases hempty : (Claim.clause line).isEmpty = true
    · have hnone : Claim.ofLine? line = .ok none := if_pos hempty
      rw [List.map_cons, List.filter_cons_of_neg (by simp [hempty])] at h
      rw [List.mapM_cons, hnone, ← ih h hplain]
      cases lines.mapM Claim.ofLine? <;> rfl
    · rw [List.map_cons, List.filter_cons_of_pos (by simp [hempty])] at h
      obtain ⟨c, rest, rfl, hline, hrest⟩ := List.map_eq_cons_iff.mp h.symm
      obtain ⟨hc, hplain⟩ := List.forall_mem_cons.mp hplain
      rw [List.mapM_cons, List.mapM_cons, c.ofLine?_eq_claim hline.symm hc, ← ih hrest.symm hplain]
      cases c.claim with
      | error e => rfl
      | ok claim => cases lines.mapM Claim.ofLine? <;> rfl

theorem parse_of_clauses {raw : String} {cs : List Claim.Reasoned} (hink : Text.hasInk raw.toList = true)
    (h : clauses raw = cs.map Claim.Reasoned.text) (hplain : ∀ c ∈ cs, Text.dottedI ∉ c.predicate) :
    parse (some raw) = (cs.mapM Claim.Reasoned.claim).map fun claims => some ⟨raw, claims⟩ := by
  have hparse : parse (some raw) =
      if !Text.hasInk raw.toList then .ok none
      else (lines raw).mapM Claim.ofLine? >>= fun claims => .ok (some ⟨raw, claims.filterMap id⟩) := rfl
  rw [hparse, if_neg (by simp [hink]), ← mapM_ofLine? h hplain]
  cases (lines raw).mapM Claim.ofLine? <;> rfl

theorem claims_isOk_iff {cs : List Claim.Reasoned} : (∃ claims, cs.mapM Claim.Reasoned.claim = .ok claims) ↔
    ∀ c ∈ cs, Reading.Readable (String.ofList c.predicate) := by
  simp only [← Claim.claimed_isOk_iff, Outcome.mapM_isOk_iff]
  exact forall₂_congr fun c _ => Outcome.bind_ok_isOk_iff

/-- The clauses of a listing are those listed, with the marker before them or without. -/
theorem clauses_listing {header : List Char} (hheader : header = [] ∨ header = "SAFETY: ".toList)
    {separator : Char} (hseparator : separator = '\n' ∨ separator = ';') {cs : List Claim.Reasoned}
    (hne : cs ≠ []) (h : ∀ c ∈ cs, Claim.dropMarker c.text = c.text) :
    Text.hasInk (listing header separator cs).toList = true ∧
      clauses (listing header separator cs) = cs.map Claim.Reasoned.text := by
  obtain ⟨first, rest, rfl⟩ := List.exists_cons_of_ne_nil hne
  obtain ⟨body, hbody⟩ :
      ∃ body, Text.join [separator] ((first :: rest).map Claim.Reasoned.item) = '-' :: body := by
    cases rest with
    | nil => exact ⟨_, rfl⟩
    | cons next others => exact ⟨_, rfl⟩
  have hmarker : Claim.dropMarker (header ++ '-' :: body) = '-' :: body := by
    rcases hheader with rfl | rfl <;> rfl
  have hitems : ∀ item ∈ (first :: rest).map Claim.Reasoned.item,
      ∀ d ∈ item, (d == '\n' || d == ';') = false := by
    intro item hitem d hd
    obtain ⟨c, -, rfl⟩ := List.mem_map.mp hitem
    have hline : d ≠ '\n' := fun h => c.not_mem_item c.one_line (by decide) (by decide) (h ▸ hd)
    have hclause : d ≠ ';' := fun h => c.not_mem_item c.one_clause (by decide) (by decide) (h ▸ hd)
    simp [hline, hclause]
  have hlines : lines (listing header separator (first :: rest)) = (first :: rest).map Claim.Reasoned.item := by
    rw [lines, listing, String.toList_ofList, hbody, hmarker, ← hbody]
    exact Text.splitAt_join (by rcases hseparator with rfl | rfl <;> rfl) (by simp) hitems
  have htexts : ((first :: rest).map Claim.Reasoned.item).map Claim.clause =
      (first :: rest).map Claim.Reasoned.text := by
    rw [List.map_map]
    exact List.map_congr_left fun c hc => c.clause_item (h c hc)
  refine ⟨?_, ?_⟩
  · have hdash : (!Text.isBlank '-') = true := rfl
    rw [listing, String.toList_ofList, hbody, Text.hasInk, List.any_append, List.any_cons, hdash, Bool.true_or,
      Bool.or_true]
  · rw [clauses, hlines, htexts, List.filter_eq_self]
    intro text htext
    obtain ⟨c, -, rfl⟩ := List.mem_map.mp htext
    simp [c.inked_text.ne_nil]

end Justification

/-- A clause is cut into its predicate and its reason exactly if the predicate has no capital that lowers to two
characters. Each of them moves the cut by one character: the predicate takes in what follows it, and the reason
loses its start. A justification made of clauses without them makes their claims, or none if some predicate cannot
be read; such a justification is any list of clauses, with the marker before it or without. -/
theorem reasons_split_off_iff_not_dotted (c : Claim.Reasoned) (cs : List Claim.Reasoned) :
    Claim.split c.text = .ok (Text.trim (c.predicate ++ (Claim.because ++ c.reason).take c.shift),
      Text.trim (c.reason.drop c.shift)) ∧
    (Claim.split c.text = .ok (c.predicate, c.reason) ↔ Text.dottedI ∉ c.predicate) ∧
    (∀ raw : String, Text.hasInk raw.toList = true → Justification.clauses raw = cs.map Claim.Reasoned.text →
      (∀ c ∈ cs, Text.dottedI ∉ c.predicate) →
      Justification.parse (some raw) = (cs.mapM Claim.Reasoned.claim).map (fun claims => some ⟨raw, claims⟩) ∧
      ((∃ claims, cs.mapM Claim.Reasoned.claim = .ok claims) ↔
        ∀ c ∈ cs, Reading.Readable (String.ofList c.predicate))) ∧
    (∀ (header : List Char) (separator : Char), header = [] ∨ header = "SAFETY: ".toList →
      separator = '\n' ∨ separator = ';' → cs ≠ [] → (∀ c ∈ cs, Claim.dropMarker c.text = c.text) →
      Text.hasInk (Justification.listing header separator cs).toList = true ∧
      Justification.clauses (Justification.listing header separator cs) = cs.map Claim.Reasoned.text) := by
  refine ⟨c.split_text, c.split_text_eq_iff, fun raw hink hclauses hplain => ?_, fun header separator => ?_⟩
  · exact ⟨Justification.parse_of_clauses hink hclauses hplain, Justification.claims_isOk_iff⟩
  · intro hheader hseparator hne hmarker
    exact Justification.clauses_listing hheader hseparator hne hmarker

/-- A pointer is aligned because of its origin. -/
def alignedPointer (name : Char) (hname : name = 'p' ∨ name = Text.dottedI) : Claim.Reasoned where
  predicate := "aligned(".toList ++ [name, ')']
  reason := "it points into a Box".toList
  predicate_inked := ⟨⟨'a', rfl, rfl⟩, ⟨')', rfl, rfl⟩⟩
  reason_inked := ⟨⟨'i', rfl, rfl⟩, ⟨'x', rfl, rfl⟩⟩
  one_line := by rcases hname with rfl | rfl <;> decide
  one_clause := by rcases hname with rfl | rfl <;> decide
  unannounced := by rcases hname with rfl | rfl <;> decide

theorem alignedPointer_reasons :
    Claim.split (alignedPointer Text.dottedI (.inr rfl)).text =
      .ok ("aligned(".toList ++ [Text.dottedI, ')'], "t points into a Box".toList) ∧
    ∃ claims, Justification.parse (some "SAFETY: - aligned(p) because it points into a Box") =
      .ok (some ⟨"SAFETY: - aligned(p) because it points into a Box", claims⟩) ∧
      claims.map Claim.reason = ["it points into a Box"] := by
  obtain ⟨hsplit, -, hparse, hlisting⟩ :=
    reasons_split_off_iff_not_dotted (alignedPointer Text.dottedI (.inr rfl)) [alignedPointer 'p' (.inl rfl)]
  refine ⟨hsplit.trans rfl, ?_⟩
  obtain ⟨hink, hclauses⟩ := hlisting "SAFETY: ".toList ';' (.inr rfl) (.inr rfl) (List.cons_ne_nil _ _)
    (List.forall_mem_singleton.mpr rfl)
  have hread := (hparse _ hink hclauses (List.forall_mem_singleton.mpr (by decide))).1
  have hclaims : (([alignedPointer 'p' (.inl rfl)].mapM Claim.Reasoned.claim).toOption.any fun claims =>
      claims.map Claim.reason == ["it points into a Box"]) = true := by decide +kernel
  obtain ⟨claims, hok, hreasons⟩ := Outcome.any_toOption_eq_true_iff.mp hclaims
  rw [hok] at hread
  exact ⟨claims, hread, beq_iff_eq.mp hreasons⟩

end CrateSafety

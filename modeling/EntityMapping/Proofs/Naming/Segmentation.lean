import EntityMapping.Proofs.Naming.Words

/-! # Words as segments of an identifier

The words hold all letters and numbers of an identifier in their order. A word that is taken out of
its run is not cut again: the test for a cut looks one character ahead, and what is hidden behind
the end of a word could only have brought a cut, never prevented one. So words that are joined by a
separator are found again.
-/
namespace EntityMapping.Naming
open Text

variable {a b c s : Char} {cs ds f u v w : List Char} {us ws : List (List Char)}

def isSeparator (c : Char) : Bool := c = '_' || !isAlphanumeric c

theorem not_isSeparator (c : Char) : (!isSeparator c) = isAlphanumeric c := by
  have hscore : isAlphanumeric '_' = false := by decide
  by_cases hc : c = '_'
  · simp [isSeparator, hc, hscore]
  · simp [isSeparator, hc]

theorem flatten_attach (c : Char) (ws : List (List Char)) :
    (attach c ws).flatten = c :: ws.flatten := by
  cases ws <;> rfl

theorem flatten_runs (cs : List Char) : (runs cs).flatten = cs.filter isAlphanumeric := by
  induction cs with
  | nil => rfl
  | cons c cs ih =>
    rw [runs]
    cases hc : isAlphanumeric c with
    | false => simp [hc, ih]
    | true =>
      rw [if_pos rfl, List.filter_cons_of_pos hc, ← ih]
      split
      · exact flatten_attach c _
      · rfl

theorem flatten_segments (cs : List Char) : (segments cs).flatten = cs := by
  induction cs with
  | nil => rfl
  | cons c cs ih =>
    rw [segments]
    split
    · rw [List.flatten_cons, ih, List.singleton_append]
    · rw [flatten_attach, ih]

/-- No letter and no number is lost, repeated or moved. -/
theorem flatten_wordsOf (cs : List Char) : (wordsOf cs).flatten = cs.filter isAlphanumeric := by
  have hsegments : List.flatten ∘ segments = id := funext flatten_segments
  rw [wordsOf, List.flatMap_def, List.flatten_flatten, List.map_map, hsegments, List.map_id,
    flatten_runs]

/-- Nothing is cut between two of the characters. -/
def Unbroken : List Char → Prop
  | [] => True
  | c :: cs => breaksAfter c cs = false ∧ Unbroken cs

theorem breaksAfter_append (h : breaksAfter a u) : breaksAfter a (u ++ v) := by
  cases u with
  | nil => cases h
  | cons b u =>
    cases u with
    | cons x u => exact h
    | nil =>
      simp only [breaksAfter, boundary, List.head?_nil, Option.any_none, Bool.and_false,
        Bool.or_false] at h
      simp only [List.cons_append, List.nil_append, breaksAfter, boundary, h, Bool.true_or]

theorem unbroken_of_mem_segments (h : w ∈ segments cs) : Unbroken w := by
  induction cs generalizing w with
  | nil => cases h
  | cons c cs ih =>
    rw [segments] at h
    split at h
    · rcases List.mem_cons.1 h with rfl | h
      · exact ⟨rfl, trivial⟩
      · exact ih h
    · rename_i hjoined
      have hcs := flatten_segments cs
      cases hsegments : segments cs with
      | nil =>
        rw [hsegments] at h
        obtain rfl : w = [c] := List.mem_singleton.1 h
        exact ⟨rfl, trivial⟩
      | cons v vs =>
        rw [hsegments] at h ih hcs
        rcases List.mem_cons.1 h with rfl | h
        -- a cut inside the word would be a cut of the run, where more can be seen ahead
        · refine ⟨Bool.eq_false_iff.2 fun hbreak => hjoined ?_, ih List.mem_cons_self⟩
          rw [← hcs, List.flatten_cons]
          exact breaksAfter_append hbreak
        · exact ih (List.mem_cons_of_mem _ h)

theorem segments_of_unbroken (hne : cs ≠ []) (h : Unbroken cs) : segments cs = [cs] := by
  induction cs with
  | nil => exact absurd rfl hne
  | cons c cs ih =>
    obtain ⟨hc, hcs⟩ := h
    rw [segments, hc, if_neg Bool.false_ne_true]
    cases cs with
    | nil => rfl
    | cons b cs =>
      rw [ih (List.cons_ne_nil _ _) hcs]
      rfl

structure IsWord (w : List Char) : Prop where
  ne_nil : w ≠ []
  alphanumeric : ∀ x ∈ w, isAlphanumeric x
  unbroken : Unbroken w

theorem isWord_of_mem (h : w ∈ wordsOf cs) : IsWord w := by
  obtain ⟨hne, hmem, _⟩ := mem_wordsOf h
  obtain ⟨r, _, hw⟩ := List.mem_flatMap.1 h
  exact ⟨hne, fun x hx => (hmem x hx).2, unbroken_of_mem_segments hw⟩

theorem IsWord.wordsOf_eq (h : IsWord w) : wordsOf w = [w] := by
  rw [wordsOf_of_alphanumeric h.alphanumeric, segments_of_unbroken h.ne_nil h.unbroken]

/-- Two texts have their own runs unless a letter or number stands on either side of the place where
they meet. -/
theorem runs_append (h : cs.getLast?.any isAlphanumeric = false ∨
    ds.head?.any isAlphanumeric = false) : runs (cs ++ ds) = runs cs ++ runs ds := by
  induction cs with
  | nil => rfl
  | cons c cs ih =>
    rw [List.cons_append, runs, runs]
    cases cs with
    | nil =>
      cases hc : isAlphanumeric c with
      | false => simp [runs]
      | true =>
        have hds : ds.head?.any isAlphanumeric = false := by simpa [hc] using h
        simp [hds, runs]
    | cons b cs =>
      rw [List.getLast?_cons_cons] at h
      rw [ih h, List.cons_append, List.head?_cons, List.head?_cons]
      cases hc : isAlphanumeric c with
      | false => rfl
      | true =>
        cases hb : isAlphanumeric b with
        | false => simp [hb]
        | true =>
          have hne : runs (b :: cs) ≠ [] := fun hnil => by
            simp [runs_eq_nil_iff.1 hnil b List.mem_cons_self] at hb
          obtain ⟨r, rs, hruns⟩ := List.exists_cons_of_ne_nil hne
          simp [hruns, hb, attach]

theorem wordsOf_append (h : cs.getLast?.any isAlphanumeric = false ∨
    ds.head?.any isAlphanumeric = false) : wordsOf (cs ++ ds) = wordsOf cs ++ wordsOf ds := by
  rw [wordsOf, runs_append h, List.flatMap_append]
  rfl

/-- Words with a separator between them are found again. -/
theorem wordsOf_intercalate (hs : isAlphanumeric s = false) (h : ∀ w ∈ ws, IsWord w) :
    wordsOf ([s].intercalate ws) = ws := by
  induction ws with
  | nil => rfl
  | cons w ws ih =>
    obtain ⟨hw, hws⟩ := List.forall_mem_cons.1 h
    cases ws with
    | nil => rw [List.intercalate_singleton, hw.wordsOf_eq]
    | cons v ws =>
      have hrest : wordsOf (s :: [s].intercalate (v :: ws)) = v :: ws := by
        rw [wordsOf, runs, hs, if_neg Bool.false_ne_true]
        exact ih hws
      rw [List.intercalate_cons_cons, List.append_assoc, List.singleton_append,
        wordsOf_append (.inr (by simp [hs])), hw.wordsOf_eq, hrest, List.singleton_append]

/-- The first of the words make up this text. -/
def CutAfter (ws : List (List Char)) (f : List Char) : Prop := ∃ us, us <+: ws ∧ us.flatten = f

theorem cutAfter_cons_iff : CutAfter ([c] :: ws) (c :: f) ↔ CutAfter ws f := by
  constructor
  · rintro ⟨us, hprefix, hflat⟩
    cases us with
    | nil => cases hflat
    | cons u us =>
      obtain ⟨rfl, hus⟩ := List.cons_prefix_cons.1 hprefix
      exact ⟨us, hus, List.tail_eq_of_cons_eq hflat⟩
  · rintro ⟨us, hprefix, rfl⟩
    exact ⟨[c] :: us, List.cons_prefix_cons.2 ⟨rfl, hprefix⟩, rfl⟩

theorem cutAfter_attach_iff (hf : f ≠ []) (hws : ws ≠ []) :
    CutAfter (attach c ws) (c :: f) ↔ CutAfter ws f := by
  obtain ⟨w, ws, rfl⟩ := List.exists_cons_of_ne_nil hws
  constructor
  · rintro ⟨us, hprefix, hflat⟩
    cases us with
    | nil => cases hflat
    | cons u us =>
      obtain ⟨rfl, hus⟩ := List.cons_prefix_cons.1 hprefix
      exact ⟨w :: us, List.cons_prefix_cons.2 ⟨rfl, hus⟩, List.tail_eq_of_cons_eq hflat⟩
  · rintro ⟨us, hprefix, hflat⟩
    cases us with
    | nil => exact absurd hflat.symm hf
    | cons u us =>
      obtain ⟨rfl, hus⟩ := List.cons_prefix_cons.1 hprefix
      exact ⟨(c :: u) :: us, List.cons_prefix_cons.2 ⟨rfl, hus⟩, congrArg (c :: ·) hflat⟩

theorem cutAfter_nil (ws : List (List Char)) : CutAfter ws [] := ⟨[], List.nil_prefix, rfl⟩

theorem not_cutAfter_of_long : ¬ CutAfter ((a :: b :: w) :: ws) [a] := by
  rintro ⟨us, hprefix, hflat⟩
  cases us with
  | nil => cases hflat
  | cons u us =>
    obtain ⟨rfl, _⟩ := List.cons_prefix_cons.1 hprefix
    cases hflat

theorem cutAfter_segments_iff (u : List Char) (a b : Char) (v : List Char) :
    CutAfter (segments (u ++ a :: b :: v)) (u ++ [a]) ↔ boundary a b v.head? := by
  -- on what stands in front of the place: whether it is cut itself has no say in it
  induction u with
  | nil =>
    obtain ⟨w, ws, hsegments⟩ := segments_cons b v
    rw [List.nil_append, List.nil_append, segments]
    cases hbreak : breaksAfter a (b :: v) with
    | true => exact iff_of_true (cutAfter_cons_iff.2 (cutAfter_nil _)) hbreak
    | false =>
      rw [if_neg Bool.false_ne_true, hsegments]
      exact iff_of_false not_cutAfter_of_long (Bool.eq_false_iff.1 hbreak)
  | cons c u ih =>
    have hne : segments (u ++ a :: b :: v) ≠ [] := by
      intro hnil
      have hflat := flatten_segments (u ++ a :: b :: v)
      simp [hnil] at hflat
    rw [List.cons_append, List.cons_append, segments]
    split
    · rw [cutAfter_cons_iff, ih]
    · rw [cutAfter_attach_iff (by simp) hne, ih]

/-- A maximal run of letters and numbers, with what stands around it. -/
structure IsRun (front run back : String) : Prop where
  ne_empty : run ≠ ""
  alphanumeric : ∀ c ∈ run.toList, isAlphanumeric c
  front_ends : front.toList.getLast?.any isAlphanumeric = false
  back_starts : back.toList.head?.any isAlphanumeric = false

/-- The words are the pieces of a run, and it is cut exactly where the test for a cut holds. -/
structure CutsRun (run : String) (ws : List String) : Prop where
  join_eq : String.join ws = run
  cut_iff : ∀ u a b v, run.toList = u ++ a :: b :: v →
    ((∃ us, us <+: ws ∧ String.join us = String.ofList (u ++ [a])) ↔ boundary a b v.head?)

/-- The words of an identifier: all that is no separator, in pieces which stay words alone and with
underscores between them, and each run is cut as the test for a cut tells. -/
structure IsSegmentation (name : String) (ws : List String) : Prop where
  join_eq : String.join ws = String.ofList (name.toList.filter fun c => !isSeparator c)
  ne_empty : ∀ w ∈ ws, w ≠ ""
  alone : ∀ w ∈ ws, words w = [w]
  rejoined : ∀ us, us <+: ws → words ("_".intercalate us) = us
  cut : ∀ front run back, name = front ++ run ++ back → IsRun front run back →
    ∃ inside, ws = words front ++ inside ++ words back ∧ CutsRun run inside

theorem join_map_ofList (us : List (List Char)) :
    String.join (us.map String.ofList) = String.ofList us.flatten := by
  rw [← String.toList_inj, String.toList_join, List.flatMap_map]
  simp [List.flatMap_def]

theorem mem_words {name w : String} (h : w ∈ words name) : IsWord w.toList := by
  obtain ⟨v, hv, rfl⟩ := List.mem_map.1 h
  rw [String.toList_ofList]
  exact isWord_of_mem hv

theorem words_of_isWord {w : String} (h : IsWord w.toList) : words w = [w] := by
  rw [words, h.wordsOf_eq, List.map_singleton, String.ofList_toList]

theorem words_intercalate {us : List String} (h : ∀ w ∈ us, IsWord w.toList) :
    words ("_".intercalate us) = us := by
  have hscore : isAlphanumeric '_' = false := by decide
  have hchars : ("_".intercalate us).toList = ['_'].intercalate (us.map String.toList) :=
    String.toList_intercalate
  have hspelled : String.ofList ∘ String.toList = id := funext fun _ => String.ofList_toList
  rw [words, hchars, wordsOf_intercalate hscore (List.forall_mem_map.2 h), List.map_map, hspelled,
    List.map_id]

theorem cutsRun_words {run : String} (h : ∀ c ∈ run.toList, isAlphanumeric c) :
    CutsRun run (words run) := by
  have hwords := wordsOf_of_alphanumeric h
  refine ⟨?_, fun u a b v hrun => ?_⟩
  · rw [words, join_map_ofList, hwords, flatten_segments, String.ofList_toList]
  · rw [← cutAfter_segments_iff u a b v, ← hrun, ← hwords, words]
    simp only [List.prefix_map_iff]
    constructor
    · rintro ⟨_, ⟨us, hus, rfl⟩, hjoin⟩
      rw [join_map_ofList, String.ofList_inj] at hjoin
      exact ⟨us, hus, hjoin⟩
    · rintro ⟨us, hus, hflat⟩
      exact ⟨_, ⟨us, hus, rfl⟩, by rw [join_map_ofList, hflat]⟩

theorem words_append {front back : String} (h : front.toList.getLast?.any isAlphanumeric = false ∨
    back.toList.head?.any isAlphanumeric = false) :
    words (front ++ back) = words front ++ words back := by
  rw [words, String.toList_append, wordsOf_append h, List.map_append]
  rfl

/-- Cutting an identifier into words loses nothing and is stable. -/
theorem words_isSegmentation (name : String) : IsSegmentation name (words name) where
  join_eq := by
    rw [words, join_map_ofList, flatten_wordsOf]
    simp only [not_isSeparator]
  ne_empty w hw hempty := (mem_words hw).ne_nil (by rw [hempty]; rfl)
  alone w hw := words_of_isWord (mem_words hw)
  rejoined us hus := words_intercalate fun w hw => mem_words (hus.subset hw)
  cut front run back hname hrun := by
    refine ⟨words run, ?_, cutsRun_words hrun.alphanumeric⟩
    rw [hname, words_append (.inr hrun.back_starts), words_append (.inl hrun.front_ends)]

/-- A last capital starts a word of its own only in front of a small letter. -/
example : words "XMLHttp-XMLH" = ["XML", "Http", "XMLH"] := by decide +kernel

end EntityMapping.Naming

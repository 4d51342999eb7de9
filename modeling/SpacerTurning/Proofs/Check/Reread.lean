import SpacerTurning.Check.FixChain
import SpacerTurning.Proofs.Check.Leaves
import SpacerTurning.Proofs.Text.Lines

/-!
Texts that are read again.

A pass leaves a line for every line, and writes no line feed into one.  So the text that a chain
leaves is split into the lines that it left, but for carriage returns at their ends, which change
nothing that is read.
-/

namespace SpacerTurning

open Number

variable {α : Type} [Scalar α]

theorem forall₂_comp {β γ δ : Type} {R : β → γ → Prop} {S : γ → δ → Prop} {T : β → δ → Prop}
    (h : ∀ a b c, R a b → S b c → T a c) {as : List β} {bs : List γ} {cs : List δ}
    (hR : List.Forall₂ R as bs) (hS : List.Forall₂ S bs cs) : List.Forall₂ T as cs := by
  induction hR generalizing cs with
  | nil =>
    cases hS
    exact .nil
  | cons hab _ ih =>
    cases hS with
    | cons hbc hS => exact .cons (h _ _ _ hab hbc) (ih hS)

theorem forall_of_forall₂_right {β γ : Type} {R : β → γ → Prop} {as : List β} {bs : List γ}
    (h : List.Forall₂ R as bs) : ∀ b ∈ bs, ∃ a ∈ as, R a b := by
  induction h with
  | nil => simp
  | cons hab _ ih =>
    intro b hb
    rcases List.mem_cons.1 hb with rfl | hb
    · exact ⟨_, List.mem_cons_self, hab⟩
    · obtain ⟨a, ha, hab⟩ := ih b hb
      exact ⟨a, List.mem_cons_of_mem _ ha, hab⟩

theorem Line.forall₂_parseFrom {R : String → String → Prop} {S : Line α → Line α → Prop}
    (h : ∀ n raw raw', R raw raw' → S (parse n raw) (parse n raw')) {raws raws' : List String}
    (hR : List.Forall₂ R raws raws') (n : Nat) :
    List.Forall₂ S (parseFrom n raws) (parseFrom n raws') := by
  induction hR generalizing n with
  | nil => exact .nil
  | cons hraw _ ih => exact .cons (h n _ _ hraw) (ih (n + 1))

/-! ## The text at the end -/

/-- A line with nothing but blanks behind another one. -/
def TrimsTo (raw raw' : String) : Prop :=
  ∃ g, raw.toList = raw'.toList ++ g ∧ ∀ c ∈ g, Text.isBlank c = true

theorem trimsTo_withoutReturn (raw : String) : TrimsTo raw (Text.withoutReturn raw) := by
  obtain ⟨g, hg, hreturn⟩ := Text.exists_dropLastReturn_append raw.toList
  refine ⟨g, by rw [Text.withoutReturn, String.toList_ofList]; exact hg, fun c hc => ?_⟩
  rw [hreturn c hc]
  decide

/-- The lines of the text at the end: those of the chain, each without the carriage return that a line
feed behind it takes in. -/
theorem splitLines_textOf {source : String} {init : List String} {last : String}
    (hsingle : ∀ raw ∈ init ++ [last], '\n' ∉ raw.toList)
    (hlast : Text.endsWithFeed source = false → last.toList ≠ []) :
    Text.splitLines (FixChain.textOf source (init ++ [last])) =
      init.map Text.withoutReturn
        ++ [if Text.endsWithFeed source then Text.withoutReturn last else last] := by
  have hfeed (rs : List String) (hrs : ∀ raw ∈ rs, '\n' ∉ raw.toList) :
      ∀ l ∈ rs.map String.toList, '\n' ∉ l := by
    intro l hl
    obtain ⟨raw, hraw, rfl⟩ := List.mem_map.1 hl
    exact hrs raw hraw
  have hmap (rs : List String) : ((rs.map String.toList).map Text.dropLastReturn).map String.ofList
      = rs.map Text.withoutReturn := by
    rw [List.map_map, List.map_map]
    rfl
  rw [Text.splitLines_eq, FixChain.textOf, String.toList_append, Text.toList_intercalate_feed]
  cases hends : Text.endsWithFeed source with
  | true =>
    have hlines := Text.lineChars_flatMap_append (hfeed (init ++ [last]) hsingle)
      (List.not_mem_nil (a := '\n'))
    have htext : (init.map String.toList).flatMap (· ++ ['\n']) ++ last.toList ++ "\n".toList
        = ((init ++ [last]).map String.toList).flatMap (· ++ ['\n']) ++ [] := by simp
    rw [if_pos rfl, htext, hlines, if_pos rfl, List.append_nil, hmap, List.map_append]
    rfl
  | false =>
    have hlines := Text.lineChars_flatMap_append
      (hfeed init fun raw hraw => hsingle raw (List.mem_append_left _ hraw))
      (hsingle last (by simp))
    have htext : (init.map String.toList).flatMap (· ++ ['\n']) ++ last.toList ++ "".toList
        = (init.map String.toList).flatMap (· ++ ['\n']) ++ last.toList := by simp
    rw [if_neg (by decide), htext, hlines, if_neg (hlast hends), List.map_append, hmap]
    simp

/-- The lines of the text at the end are the lines that the chain left. -/
theorem forall₂_splitLines_textOf {source : String} {raws : List String} (hne : raws ≠ [])
    (hsingle : ∀ raw ∈ raws, '\n' ∉ raw.toList)
    (hlast : Text.endsWithFeed source = false → ∀ raw ∈ raws.getLast?, raw.toList ≠ []) :
    List.Forall₂ TrimsTo raws (Text.splitLines (FixChain.textOf source raws)) := by
  obtain ⟨init, last, rfl⟩ : ∃ init last, raws = init ++ [last] :=
    ⟨raws.dropLast, raws.getLast hne, (List.dropLast_append_getLast hne).symm⟩
  rw [splitLines_textOf hsingle fun hends => hlast hends last (by simp)]
  refine List.rel_append ?_ (.cons ?_ .nil)
  · rw [List.forall₂_map_right_iff, List.forall₂_same]
    exact fun raw _ => trimsTo_withoutReturn raw
  · split
    · exact trimsTo_withoutReturn last
    · exact ⟨[], by simp, by simp⟩

/-! ## The passes one after another -/

theorem FixChain.runLines_ofDetector (name description : String) (judge : Detector α)
    (rest : FixChain α) (raws : List String) :
    runLines (.ofDetector name description judge :: rest) raws =
      ((runLines rest (judge.run (Line.parseAll raws)).lines).1,
        (judge.run (Line.parseAll raws)).diagnostics
          ++ (runLines rest (judge.run (Line.parseAll raws)).lines).2) := by
  have hlength : (judge.run (Line.parseAll raws)).lines.length = raws.length := by
    rw [Detector.length_run_lines, ← List.length_map (·.raw), Line.map_raw_parseAll]
  simp [runLines, FixPass.ofDetector, hlength]

/-- What holds of every judged step holds of all the lines that a pass leaves. -/
theorem Detector.forall₂_run {judge : Detector α} (hlocal : judge.IsLocal) {raws : List String}
    {R : Step α → Line α → Prop}
    (h : ∀ here ∈ steps (Line.parseAll raws), ∀ l' before after,
      judge.IsJudged here l' before after →
      (∀ v, judge before here after = some v →
        v.diagnostic ∈ (judge.run (Line.parseAll raws)).diagnostics) → R here l') :
    List.Forall₂ R (steps (Line.parseAll raws))
      (Line.parseAll (judge.run (Line.parseAll raws)).lines) := by
  rw [List.forall₂_iff_zip]
  constructor
  · have hlength (n : Nat) (rs : List String) :
        (Line.parseFrom n rs : List (Line α)).length = rs.length := by
      rw [← List.length_map (·.raw), Line.map_raw_parseFrom]
    rw [steps, ModalState.length_steps, Line.parseAll, Line.parseAll, hlength, hlength,
      length_run_lines, hlength]
  · intro here l' hmem
    obtain ⟨before, after, hjudged, -, hreported⟩ := exists_isJudged hlocal hmem
    exact h here (List.of_mem_zip hmem).1 l' before after hjudged hreported

/-- What holds of the line of every judged step holds of all the lines of a pass. -/
theorem Detector.forall₂_lines {judge : Detector α} (hlocal : judge.IsLocal) {raws : List String}
    {R : Line α → Line α → Prop}
    (h : ∀ here ∈ steps (Line.parseAll raws), ∀ l' before after,
      judge.IsJudged here l' before after →
      (∀ v, judge before here after = some v →
        v.diagnostic ∈ (judge.run (Line.parseAll raws)).diagnostics) → R here.line l') :
    List.Forall₂ R (Line.parseAll raws)
      (Line.parseAll (judge.run (Line.parseAll raws)).lines) := by
  exact ModalState.forall₂_steps_left.1 (forall₂_run (R := fun here l' => R here.line l') hlocal h)

/-! ## Lines stay lines -/

/-- What is written in the place of a line: no line feed comes in, and no line becomes empty. -/
def KeepsLine (raw raw' : String) : Prop :=
  ('\n' ∉ raw.toList → '\n' ∉ raw'.toList) ∧ (raw.toList ≠ [] → raw'.toList ≠ [])

namespace KeepsLine

theorem refl (raw : String) : KeepsLine raw raw := ⟨id, id⟩

theorem trans {a b c : String} (hab : KeepsLine a b) (hbc : KeepsLine b c) : KeepsLine a c :=
  ⟨hbc.1 ∘ hab.1, hbc.2 ∘ hab.2⟩

theorem mem_backOf {c : Char} {cs : List Char} (h : c ∈ backOf cs) : c ∈ cs := by
  rw [← frontOf_append_backOf cs]
  exact List.mem_append_right _ h

theorem mem_frontOf {c : Char} {cs : List Char} (h : c ∈ frontOf cs) : c ∈ cs := by
  rw [← frontOf_append_backOf cs]
  exact List.mem_append_left _ h

theorem insertBeforeComment (raw : String) {word : String} (hword : '\n' ∉ word.toList) :
    KeepsLine raw (Edit.insertBeforeComment raw word) := by
  constructor
  · intro hraw hmem
    rw [Edit.toList_insertBeforeComment, List.mem_append, List.mem_cons, List.mem_append] at hmem
    rcases hmem with hfront | hblank | hnew | htail
    · exact hraw (mem_frontOf (Edit.mem_trimEnd hfront))
    · exact absurd hblank (by decide)
    · exact hword hnew
    · rw [Edit.tailOf] at htail
      split at htail
      · cases htail
      · rcases List.mem_cons.1 htail with hblank | hback
        · exact absurd hblank (by decide)
        · exact hraw (mem_backOf hback)
  · intro _
    rw [Edit.toList_insertBeforeComment]
    simp

theorem prependCut (raw : String) : KeepsLine raw (Edit.prependWord raw "G01") := by
  obtain ⟨g, s, g', rest, t, hraw, hs, hnew, hblank⟩ := Edit.exists_prependWord raw
  constructor
  · intro hsingle hmem
    have hwhole : '\n' ∈ Edit.cutMark s ++ ' ' :: rest := by
      rw [← hnew]
      exact List.mem_append_left t hmem
    rw [List.mem_append, List.mem_cons] at hwhole
    rcases hwhole with hmark | hspace | hrest
    · exact Edit.not_mem_cutMark hs (by simp) hmark
    · exact absurd hspace (by decide)
    · refine hsingle ?_
      rw [hraw]
      simp [hrest]
  · -- The word itself is no blank, so trimming leaves it.
    intro _ hnil
    have hmark : 'G' ∈ Edit.cutMark s := by
      rw [Edit.cutMark]
      split <;> simp
    have ht : 'G' ∈ t := by
      rw [hnil, List.nil_append] at hnew
      rw [hnew]
      exact List.mem_append_left _ hmark
    exact absurd (hblank 'G' (List.mem_append_right _ ht)) (by decide)

theorem replaceWord (raw : String) (letter : Char) {replacement : String}
    (hfeed : '\n' ∉ replacement.toList) (hne : replacement.toList ≠ []) :
    KeepsLine raw (Edit.replaceWord raw letter replacement) := by
  unfold KeepsLine
  rw [toList_replaceWord]
  cases hany : (pieces 0 (frontOf raw.toList)).any (·.isWord letter) with
  | false =>
    have hstay := replaceFirst_append_of_not_any replacement.toList hany []
    rw [List.append_nil, flatMap_text_pieces] at hstay
    rw [hstay, Edit.replaceFirst, List.append_nil, frontOf_append_backOf]
    exact ⟨id, id⟩
  | true =>
    obtain ⟨f, ⟨-, hreplace⟩⟩ := exists_firstWord (α := Rat) letter _ hany
    rw [hreplace]
    constructor
    · intro hsingle hmem
      rcases List.mem_append.1 hmem with hfront | hback
      · exact f.not_mem_replace (mt mem_frontOf hsingle) hfeed hfront
      · exact hsingle (mem_backOf hback)
    · simp [FirstWord.replace, hne]

section

variable [LawfulScalar α]

theorem feed_not_mem_feedWord (feed : α) : '\n' ∉ (feedWord feed).toList := by
  obtain ⟨w, -, hword, -⟩ := exists_feedWord feed
  rw [hword]
  exact Edit.not_mem_word (by decide) w (by simp)

theorem cutText (l : Line α) (feed : α) : KeepsLine l.raw (l.cutText feed) := by
  unfold Line.cutText
  have hcut := prependCut l.raw
  split
  · exact hcut.trans (insertBeforeComment _ (feed_not_mem_feedWord feed))
  · exact hcut

theorem height (raw : String) (height : α) :
    KeepsLine raw (Edit.replaceWord raw 'Z' ("Z" ++ Word.format height)) := by
  obtain ⟨w, -, hword, -⟩ := exists_heightWord height
  refine replaceWord raw 'Z' ?_ ?_
  · rw [hword]
    exact Edit.not_mem_word (by decide) w (by simp)
  · rw [hword]
    simp

theorem faceText {l : Line α} (hl : l.IsRead) (feed : α) :
    KeepsLine l.raw (faceText feed l.comment) := by
  obtain ⟨raw, htext, hfront, hback⟩ := exists_faceText feed l.comment
  rw [htext]
  have hinsert := insertBeforeComment raw (feed_not_mem_feedWord feed)
  refine ⟨fun hsingle => hinsert.1 fun hmem => ?_, fun _ => hinsert.2 ?_⟩
  · rw [← frontOf_append_backOf raw.toList, hfront, hback, List.mem_append] at hmem
    rcases hmem with hcode | hremark
    · exact absurd hcode (by decide)
    · cases hcomment : l.comment with
      | none => simp [hcomment, remarkText] at hremark
      | some comment =>
        have hmem : '\n' ∈ comment.toList := by simpa [hcomment, remarkText] using hremark
        rw [hl] at hcomment
        rcases mem_commentOf hcomment hmem with ⟨hraw, -⟩ | hblank
        · exact hsingle hraw
        · exact absurd hblank (by decide)
  · intro hnil
    rw [hnil] at hfront
    exact absurd hfront (by decide)

end

end KeepsLine

/-! ## Chains of passes -/

namespace Detector

/-- Whatever a detector writes in the place of a line is a line. -/
def KeepsLines (judge : Detector α) : Prop :=
  ∀ before here after v, here.line.IsRead → judge before here after = some v →
    KeepsLine here.line.raw v.text

theorem IsJudged.keepsLine {judge : Detector α} (hjudge : judge.KeepsLines) {here : Step α}
    {l' : Line α} {before after : List (Step α)} (h : judge.IsJudged here l' before after) :
    KeepsLine here.line.raw l'.raw := by
  rw [h.raw]
  cases hv : judge before here after with
  | none => exact .refl _
  | some v => exact hjudge before here after v h.isRead hv

section

variable [LawfulScalar α] (c : CheckingConstants α)

theorem keepsLines_rapidPlunge : (rapidPlunge c).KeepsLines := by
  intro before here after v _ hv
  obtain ⟨z, -, -, -, htext⟩ := rapidPlunge_eq_some hv
  split at htext
  · obtain ⟨feed, htext⟩ := htext
    rw [htext]
    exact .cutText here.line feed
  · rw [htext]
    exact .refl _

theorem keepsLines_missingFeed : (missingFeed c).KeepsLines := by
  intro before here after v _ hv
  obtain ⟨-, -, feed, htext⟩ := missingFeed_eq_some hv
  rw [htext]
  exact .insertBeforeComment _ (KeepsLine.feed_not_mem_feedWord feed)

theorem keepsLines_workOffsetClearance : (workOffsetClearance c).KeepsLines := by
  intro before here after v _ hv
  obtain ⟨-, htext, -⟩ := workOffsetClearance_eq_some hv
  rw [htext]
  exact .height _ _

theorem keepsLines_bareFace : (bareFace c).KeepsLines := by
  intro before here after v hread hv
  obtain ⟨-, -, -, feed, htext⟩ := bareFace_eq_some hv
  rw [htext]
  exact .faceText hread feed

end

end Detector

/-- Line by line, a pass or a chain of them leaves lines. -/
def KeepLines (raws raws' : List String) : Prop := List.Forall₂ KeepsLine raws raws'

theorem KeepLines.trans {a b c : List String} (hab : KeepLines a b) (hbc : KeepLines b c) :
    KeepLines a c := by
  exact forall₂_comp (fun _ _ _ h h' => h.trans h') hab hbc

theorem Detector.keepLines_run {judge : Detector α} (hlocal : judge.IsLocal)
    (hjudge : judge.KeepsLines) (raws : List String) :
    KeepLines raws (judge.run (Line.parseAll raws)).lines := by
  have hlines : List.Forall₂ (fun l l' : Line α => KeepsLine l.raw l'.raw) (Line.parseAll raws)
      (Line.parseAll (judge.run (Line.parseAll raws)).lines) :=
    forall₂_lines hlocal fun here _ l' before after hjudged _ => hjudged.keepsLine hjudge
  have hraws : KeepLines ((Line.parseAll raws : List (Line α)).map (·.raw))
      ((Line.parseAll (judge.run (Line.parseAll raws)).lines : List (Line α)).map (·.raw)) :=
    List.forall₂_map_left_iff.2 (List.forall₂_map_right_iff.2 hlines)
  rwa [Line.map_raw_parseAll, Line.map_raw_parseAll] at hraws

namespace FixChain

theorem runLines_standard (c : CheckingConstants α) (raws : List String) :
    let first := (Detector.rapidPlunge c).run (Line.parseAll raws)
    let second := (Detector.missingFeed c).run (Line.parseAll first.lines)
    let third := (Detector.workOffsetClearance c).run (Line.parseAll second.lines)
    let last := (Detector.bareFace c).run (Line.parseAll third.lines)
    runLines (standard c) raws = (last.lines, first.diagnostics
      ++ (second.diagnostics ++ (third.diagnostics ++ (last.diagnostics ++ [])))) := by
  rw [standard, FixPass.rapidPlunge, FixPass.missingFeed, FixPass.workOffsetClearance,
    FixPass.bareFace, runLines_ofDetector, runLines_ofDetector, runLines_ofDetector,
    runLines_ofDetector]
  rfl

theorem keepLines_standard [LawfulScalar α] (c : CheckingConstants α) (raws : List String) :
    KeepLines raws (runLines (standard c) raws).1 := by
  rw [runLines_standard]
  have hfirst := Detector.keepLines_run (Detector.isLocal_rapidPlunge c)
    (Detector.keepsLines_rapidPlunge c) raws
  have hsecond := Detector.keepLines_run (Detector.isLocal_missingFeed c)
    (Detector.keepsLines_missingFeed c)
  have hthird := Detector.keepLines_run (Detector.isLocal_workOffsetClearance c)
    (Detector.keepsLines_workOffsetClearance c)
  have hlast := Detector.keepLines_run (Detector.isLocal_bareFace c)
    (Detector.keepsLines_bareFace c)
  exact ((hfirst.trans (hsecond _)).trans (hthird _)).trans (hlast _)

end FixChain

/-! ## The text at the end -/

theorem words_eq_of_trimsTo {n : Nat} {raw raw' : String} (h : TrimsTo raw raw') :
    (Line.parse n raw' : Line α).words = (Line.parse n raw).words := by
  obtain ⟨g, hraw, hblank⟩ := h
  rw [Line.words_parse, Line.words_parse, hraw, lineWords_append_blanks _ hblank]

theorem getLast?_of_forall₂ {β γ : Type} {R : β → γ → Prop} {as : List β} {bs : List γ}
    (h : List.Forall₂ R as bs) : ∀ b ∈ bs.getLast?, ∃ a ∈ as.getLast?, R a b := by
  induction h with
  | nil => simp
  | cons hab hrest ih =>
    cases hrest with
    | nil => simpa using hab
    | cons _ _ => simpa [List.getLast?_cons_cons] using ih

theorem FixChain.fixedText_getD (chain : FixChain α) (text : String) :
    (chain.run text).fixedText.getD text
      = if (runLines chain (Text.splitLines text)).1 = Text.splitLines text then text
        else textOf text (runLines chain (Text.splitLines text)).1 := by
  simp only [run]
  split <;> rfl

/-- What a chain leaves of a text can be split into lines again. -/
theorem KeepLines.of_splitLines {text : String} {final : List String}
    (hkeep : KeepLines (Text.splitLines text) final) :
    (∀ raw ∈ final, '\n' ∉ raw.toList) ∧
      (Text.endsWithFeed text = false → ∀ raw ∈ final.getLast?, raw.toList ≠ []) := by
  constructor
  · intro raw hraw
    obtain ⟨old, hold, hkeeps⟩ := forall_of_forall₂_right hkeep raw hraw
    exact hkeeps.1 (Text.feed_not_mem_of_mem_splitLines hold)
  · intro hends raw hraw
    obtain ⟨old, hold, hkeeps⟩ := getLast?_of_forall₂ hkeep raw hraw
    rw [Text.splitLines_eq, List.getLast?_map, Option.mem_map] at hold
    obtain ⟨cs, hcs, rfl⟩ := hold
    refine hkeeps.2 ?_
    rw [String.toList_ofList]
    exact Text.getLast?_lineChars_ne_nil (by simpa [Text.endsWithFeed] using hends) cs hcs

/-- The text at the end is read as the lines that the chain left. -/
theorem FixChain.forall₂_reread {chain : FixChain α} {text : String}
    (hkeep : KeepLines (Text.splitLines text) (runLines chain (Text.splitLines text)).1) :
    List.Forall₂ (fun l l' : Line α => l'.number = l.number ∧ TrimsTo l.raw l'.raw ∧
        l'.words = l.words)
      (Line.parseAll (runLines chain (Text.splitLines text)).1)
      (Line.parseText ((chain.run text).fixedText.getD text)) := by
  rw [fixedText_getD]
  obtain ⟨hsingle, hlast⟩ := hkeep.of_splitLines
  generalize hraws : Text.splitLines text = raws at hkeep hsingle hlast ⊢
  generalize (runLines chain raws).1 = final at hkeep hsingle hlast ⊢
  split
  · next heq =>
    rw [heq, Line.parseText, hraws, List.forall₂_same]
    exact fun l _ => ⟨rfl, ⟨[], by simp, by simp⟩, rfl⟩
  · next hne =>
    have hnil : final ≠ [] := by
      rintro rfl
      exact hne (List.forall₂_nil_right_iff.1 hkeep).symm
    exact Line.forall₂_parseFrom (fun n _ _ h => ⟨rfl, h, words_eq_of_trimsTo h⟩)
      (forall₂_splitLines_textOf hnil hsingle hlast) 1

end SpacerTurning

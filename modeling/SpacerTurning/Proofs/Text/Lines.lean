import Mathlib
import SpacerTurning.Text.Lines

/-!
Lines of a text, taken apart and put together.

A text is pieces that a line feed ends, and a last piece without one.  `splitLines` returns the
pieces, each without the carriage return before its line feed, and the last one only if there is
anything in it.  Two texts that are put together at a line feed are split apart from each other.
-/

namespace SpacerTurning
namespace Text

def dropLastReturn : List Char → List Char
  | [] => []
  | [c] => if c = '\r' then [] else [c]
  | c :: d :: cs => c :: dropLastReturn (d :: cs)

/-- A line without a carriage return at its end. -/
def withoutReturn (line : String) : String := String.ofList (dropLastReturn line.toList)

def lineChars (cs : List Char) : List (List Char) := split '\n' (dropReturns cs).2

theorem splitLines_eq (text : String) :
    splitLines text = (lineChars text.toList).map String.ofList := rfl

theorem dropLastReturn_of_getLast?_ne {l : List Char} (h : l.getLast? ≠ some '\r') :
    dropLastReturn l = l := by
  fun_induction dropLastReturn l with
  | case1 => rfl
  | case2 => simp at h
  | case3 => rfl
  | case4 c d cs ih => rw [ih (by simpa using h)]

theorem not_mem_dropLastReturn {d : Char} {l : List Char} (h : d ∉ l) : d ∉ dropLastReturn l := by
  fun_induction dropLastReturn l with
  | case1 => simp
  | case2 => simp
  | case3 => exact h
  | case4 c e cs ih =>
    have hc : d ≠ c := fun eq => h (eq ▸ List.mem_cons_self)
    have hrest : d ∉ e :: cs := fun m => h (List.mem_cons_of_mem _ m)
    simpa [hc] using ih hrest

/-- Only the last character of a line can belong to its end. -/
theorem dropReturns_append_feed {l : List Char} (h : '\n' ∉ l) (rest : List Char) :
    (dropReturns (l ++ '\n' :: rest)).2 = dropLastReturn l ++ '\n' :: (dropReturns rest).2 := by
  fun_induction dropLastReturn l with
  | case1 => simp [dropReturns_snd_cons]
  | case2 => simp [dropReturns_snd_cons]
  | case3 c hc => simp [dropReturns_snd_cons, hc]
  | case4 c d cs ih =>
    have hd : d ≠ '\n' := fun e => h (e ▸ by simp)
    have hrest : '\n' ∉ d :: cs := fun m => h (List.mem_cons_of_mem _ m)
    have step := dropReturns_snd_cons c ((d :: cs) ++ '\n' :: rest)
    rw [List.cons_append, step, ih hrest]
    simp [hd]

theorem dropReturns_of_feed_not_mem {l : List Char} (h : '\n' ∉ l) : (dropReturns l).2 = l := by
  induction l with
  | nil => rfl
  | cons c cs ih =>
    have hcs : '\n' ∉ cs := fun m => h (List.mem_cons_of_mem _ m)
    have hhead : cs.head? ≠ some '\n' := fun e => hcs (List.mem_of_mem_head? e)
    rw [dropReturns_snd_cons, ih hcs]
    simp [hhead]

theorem split_append_mark {mark : Char} {l : List Char} (h : mark ∉ l) (rest : List Char) :
    split mark (l ++ mark :: rest) = l :: split mark rest := by
  induction l with
  | nil => simp [split_cons]
  | cons c cs ih =>
    have hc : c ≠ mark := fun e => h (e ▸ List.mem_cons_self)
    have hcs : mark ∉ cs := fun m => h (List.mem_cons_of_mem _ m)
    rw [List.cons_append, split_cons, ih hcs]
    simp [hc, consLine]

theorem split_of_mark_not_mem {mark : Char} {l : List Char} (h : mark ∉ l) :
    split mark l = if l = [] then [] else [l] := by
  induction l with
  | nil => rfl
  | cons c cs ih =>
    have hc : c ≠ mark := fun e => h (e ▸ List.mem_cons_self)
    have hcs : mark ∉ cs := fun m => h (List.mem_cons_of_mem _ m)
    rw [split_cons, ih hcs]
    by_cases hnil : cs = [] <;> simp [hc, hnil, consLine]

theorem mark_not_mem_of_mem_split {mark : Char} {cs l : List Char} (h : l ∈ split mark cs) :
    mark ∉ l := by
  induction cs generalizing l with
  | nil => simp [split] at h
  | cons c cs ih =>
    rw [split_cons] at h
    split at h
    · rcases List.mem_cons.1 h with rfl | h
      · simp
      · exact ih h
    · next hc =>
      have hne : mark ≠ c := fun e => hc e.symm
      cases hs : split mark cs with
      | nil =>
        rw [hs] at h
        obtain rfl : l = [c] := by simpa [consLine] using h
        simpa using hne
      | cons first rest =>
        rw [hs] at h ih
        rcases List.mem_cons.1 h with rfl | h
        · simpa [hne] using ih List.mem_cons_self
        · exact ih (List.mem_cons_of_mem _ h)

/-! ## Lines put together -/

@[simp] theorem lineChars_nil : lineChars [] = [] := rfl

theorem lineChars_append_feed {l : List Char} (h : '\n' ∉ l) (rest : List Char) :
    lineChars (l ++ '\n' :: rest) = dropLastReturn l :: lineChars rest := by
  rw [lineChars, dropReturns_append_feed h, split_append_mark (not_mem_dropLastReturn h)]
  rfl

theorem lineChars_of_feed_not_mem {l : List Char} (h : '\n' ∉ l) :
    lineChars l = if l = [] then [] else [l] := by
  rw [lineChars, dropReturns_of_feed_not_mem h, split_of_mark_not_mem h]

/-- A text is split at a line feed into what stands before it and what stands after. -/
theorem lineChars_append (a b : List Char) :
    lineChars (a ++ '\n' :: b) = lineChars (a ++ ['\n']) ++ lineChars b := by
  by_cases ha : '\n' ∈ a
  · obtain ⟨l, a', rfl, hl⟩ := List.eq_append_cons_of_mem ha
    have ih := lineChars_append a' b
    rw [List.append_assoc, List.cons_append, lineChars_append_feed hl, ih,
      List.append_assoc, List.cons_append, lineChars_append_feed hl, List.cons_append]
  · rw [lineChars_append_feed ha, lineChars_append_feed ha]
    simp
termination_by a.length

theorem dropLastReturn_append {l : List Char} (h : l ≠ []) (a : List Char) :
    dropLastReturn (a ++ l) = a ++ dropLastReturn l := by
  induction a with
  | nil => rfl
  | cons c a ih =>
    cases hrest : a ++ l with
    | nil => exact absurd (List.append_eq_nil_iff.1 hrest).2 h
    | cons d rest =>
      rw [List.cons_append, hrest, dropLastReturn, ← hrest, ih]
      rfl

theorem lineChars_ne_nil {l : List Char} (hne : l ≠ []) : lineChars l ≠ [] := by
  by_cases h : '\n' ∈ l
  · obtain ⟨first, rest, rfl, hfirst⟩ := List.eq_append_cons_of_mem h
    rw [lineChars_append_feed hfirst]
    simp
  · rw [lineChars_of_feed_not_mem h, if_neg hne]
    simp

/-- A line feed at the end of a text that ends with something else starts no line. -/
theorem lineChars_concat_feed {l : List Char} (hne : l ≠ []) (hfeed : l.getLast? ≠ some '\n')
    (hreturn : l.getLast? ≠ some '\r') : lineChars (l ++ ['\n']) = lineChars l := by
  by_cases h : '\n' ∈ l
  · obtain ⟨first, rest, rfl, hfirst⟩ := List.eq_append_cons_of_mem h
    have hrest : rest ≠ [] := by
      rintro rfl
      simp at hfeed
    have hlast : (first ++ '\n' :: rest).getLast? = rest.getLast? := by
      rw [List.getLast?_append, List.getLast?_cons, List.getLast?_eq_some_getLast hrest]
      simp
    rw [hlast] at hfeed hreturn
    have ih := lineChars_concat_feed hrest hfeed hreturn
    rw [List.append_assoc, List.cons_append, lineChars_append_feed hfirst, ih,
      lineChars_append_feed hfirst]
  · rw [lineChars_append_feed h, lineChars_of_feed_not_mem h, if_neg hne,
      dropLastReturn_of_getLast?_ne hreturn, lineChars_nil]
termination_by l.length

/-- Pieces with a line feed each, and a last one without. -/
theorem lineChars_flatMap_append {ls : List (List Char)} {tail : List Char}
    (h : ∀ l ∈ ls, '\n' ∉ l) (htail : '\n' ∉ tail) :
    lineChars (ls.flatMap (· ++ ['\n']) ++ tail)
      = ls.map dropLastReturn ++ if tail = [] then [] else [tail] := by
  induction ls with
  | nil => simpa using lineChars_of_feed_not_mem htail
  | cons l ls ih =>
    have hl : '\n' ∉ l := h l List.mem_cons_self
    have hls : ∀ l' ∈ ls, '\n' ∉ l' := fun l' m => h l' (List.mem_cons_of_mem _ m)
    rw [List.flatMap_cons, List.append_assoc, List.append_assoc, List.singleton_append,
      lineChars_append_feed hl, ih hls]
    rfl

theorem feed_not_mem_of_mem_splitLines {text line : String} (h : line ∈ splitLines text) :
    '\n' ∉ line.toList := by
  rw [splitLines_eq, List.mem_map] at h
  obtain ⟨l, hl, rfl⟩ := h
  simpa using mark_not_mem_of_mem_split hl

theorem toList_joinLines (ls : List String) :
    (joinLines ls).toList = (ls.map String.toList).flatMap (· ++ ['\n']) := by
  simp [joinLines, String.toList_join, List.flatMap_map]

/-- Splitting takes back what joining writes. -/
theorem splitLines_joinLines {ls : List String}
    (h : ∀ l ∈ ls, '\n' ∉ l.toList ∧ l.toList.getLast? ≠ some '\r') :
    splitLines (joinLines ls) = ls := by
  have hfeed : ∀ l ∈ ls.map String.toList, '\n' ∉ l := by
    intro l hl
    obtain ⟨s, hs, rfl⟩ := List.mem_map.1 hl
    exact (h s hs).1
  have hlines := lineChars_flatMap_append hfeed (List.not_mem_nil (a := '\n'))
  rw [splitLines_eq, toList_joinLines]
  simp only [List.append_nil, ↓reduceIte] at hlines
  rw [hlines, List.map_map, List.map_map]
  refine List.map_congr_left (fun l hl => ?_) |>.trans (List.map_id ls)
  simp [dropLastReturn_of_getLast?_ne (h l hl).2]

/-! ## Lines with a line feed between them -/

theorem toList_intercalate_feed (init : List String) (last : String) :
    ("\n".intercalate (init ++ [last])).toList
      = (init.map String.toList).flatMap (· ++ ['\n']) ++ last.toList := by
  induction init with
  | nil => simp [String.intercalate_singleton]
  | cons l init ih =>
    cases hinit : init ++ [last] with
    | nil => simp at hinit
    | cons first rest =>
      rw [List.cons_append, hinit, String.intercalate_cons_cons, ← hinit, String.toList_append,
        String.toList_append, ih]
      simp

theorem exists_dropLastReturn_append (l : List Char) :
    ∃ g, l = dropLastReturn l ++ g ∧ ∀ c ∈ g, c = '\r' := by
  fun_induction dropLastReturn l with
  | case1 => exact ⟨[], rfl, by simp⟩
  | case2 => exact ⟨['\r'], rfl, by simp⟩
  | case3 c => exact ⟨[], rfl, by simp⟩
  | case4 c d cs ih =>
    obtain ⟨g, hg, hreturn⟩ := ih
    exact ⟨g, by rw [List.cons_append, ← hg], hreturn⟩

/-- The last line of a text without a line feed at its end is not empty. -/
theorem getLast?_lineChars_ne_nil {cs : List Char} (h : cs.getLast? ≠ some '\n') :
    ∀ l ∈ (lineChars cs).getLast?, l ≠ [] := by
  by_cases hfeed : '\n' ∈ cs
  · obtain ⟨first, rest, rfl, hfirst⟩ := List.eq_append_cons_of_mem hfeed
    have hrest : rest ≠ [] := by
      rintro rfl
      simp at h
    have hlast : (first ++ '\n' :: rest).getLast? = rest.getLast? := by
      rw [List.getLast?_append, List.getLast?_cons, List.getLast?_eq_some_getLast hrest]
      simp
    rw [hlast] at h
    have ih := getLast?_lineChars_ne_nil h
    obtain ⟨l, ls, hls⟩ := List.exists_cons_of_ne_nil (lineChars_ne_nil hrest)
    rw [lineChars_append_feed hfirst, hls, List.getLast?_cons_cons, ← hls]
    exact ih
  · rw [lineChars_of_feed_not_mem hfeed]
    split
    · simp
    · next hne => simpa using hne
termination_by cs.length

end Text
end SpacerTurning

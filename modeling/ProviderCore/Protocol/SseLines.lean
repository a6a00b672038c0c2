import ProviderCore.Proxy.Provider

/-!
# Event streams by lines

Two readers cut an event stream by its lines: the restorer of the Grok stream and the proxy's
search for response ids.  A line ends with CR, LF or both, and a frame ends with its first empty
line.  A lone CR at the end of the buffer ends a line, so an LF that arrives after it makes a frame
of its own.

The lines of a frame are kept with their endings, and a frame put together from lines has their
contents again, up to empty lines: a CR and an empty line's LF become one ending
(`contents_unlines`).
-/

namespace ProviderCore.Protocol

open List

/-! ## Frames -/

/-- The end of the first empty line, in a buffer that begins within a line or at the start of
one. -/
def frameEndFrom (atStart : Bool) : Bytes → Option ℕ
  | [] => none
  | 13 :: 10 :: rest => if atStart then some 2 else (frameEndFrom true rest).map (· + 2)
  | byte :: rest =>
    if byte = 13 ∨ byte = 10 then
      if atStart then some 1 else (frameEndFrom true rest).map (· + 1)
    else (frameEndFrom false rest).map (· + 1)

def findSseFrameEnd (buffer : Bytes) : Option ℕ := frameEndFrom true buffer

def sseLinesFrom (line : Bytes) : Bytes → List (Bytes × Bytes)
  | [] => if line.isEmpty then [] else [(line, [])]
  | 13 :: 10 :: rest => (line, [13, 10]) :: sseLinesFrom [] rest
  | byte :: rest =>
    if byte = 13 ∨ byte = 10 then (line, [byte]) :: sseLinesFrom [] rest
    else sseLinesFrom (line ++ [byte]) rest

def sseLines (frame : Bytes) : List (Bytes × Bytes) := sseLinesFrom [] frame

def unlines (lines : List (Bytes × Bytes)) : Bytes := lines.flatMap fun line => line.1 ++ line.2

/-! ## Fields -/

/-- The value of a field, after one space. -/
def fieldValue (name : String) (line : Bytes) : Option Bytes :=
  (Text.afterStart (Text.ascii (name ++ ": ")) line).or
    (Text.afterStart (Text.ascii (name ++ ":")) line)

def sseEventName (frame : Bytes) : Option String :=
  (sseLines frame).findSome? fun line =>
    ((fieldValue "event" line.1).bind Text.fromUtf8).map Text.trim

/-- The data of a line after that of the lines before it. -/
def joinData (data : Bytes) (line : Bytes) : Bytes :=
  match fieldValue "data" line with
  | some value => if data.isEmpty then value else data ++ 10 :: value
  | none => data

/-- The data of some lines. -/
def dataOf (lines : List (Bytes × Bytes)) : Bytes := (lines.map (·.1)).foldl joinData []

def sseDataPayload (frame : Bytes) : Option Bytes :=
  if (dataOf (sseLines frame)).isEmpty then none else some (dataOf (sseLines frame))

/-! ## Where a frame ends -/

variable {buffer : Bytes}

theorem frameEndFrom_pos {atStart : Bool} {i : ℕ}
    (h : frameEndFrom atStart buffer = some i) : 0 < i ∧ i ≤ buffer.length := by
  fun_induction frameEndFrom atStart buffer generalizing i with
  | case1 => cases h
  | case2 => cases h; simp
  | case4 => cases h; simp
  | case3 _ _ _ ih | case5 _ _ _ _ _ _ ih | case6 _ _ _ _ _ ih =>
    obtain ⟨_, hj, rfl⟩ := Option.map_eq_some_iff.mp h
    have := ih hj
    simp only [length_cons]
    omega

theorem findSseFrameEnd_pos {i : ℕ} (h : findSseFrameEnd buffer = some i) :
    0 < i ∧ i ≤ buffer.length := frameEndFrom_pos h

/-! ## Lines put together -/

/-- Bytes within one line. -/
def NoBreak (bytes : Bytes) : Prop := ∀ byte ∈ bytes, byte ≠ 13 ∧ byte ≠ 10

instance (bytes : Bytes) : Decidable (NoBreak bytes) :=
  List.decidableBAll (fun byte => byte ≠ 13 ∧ byte ≠ 10) bytes

theorem noBreak_nil : NoBreak [] := fun _ hbyte => absurd hbyte not_mem_nil

theorem NoBreak.append {bytes bytes' : Bytes} (h : NoBreak bytes) (h' : NoBreak bytes') :
    NoBreak (bytes ++ bytes') := by
  intro byte hbyte
  exact (mem_append.mp hbyte).elim (h byte) (h' byte)

/-- Every line has an ending, but the last may have none. -/
def WellEnded : List (Bytes × Bytes) → Prop
  | [] => True
  | (content, ending) :: lines =>
    NoBreak content ∧ (ending ∈ [[10], [13], [13, 10]] ∨ ending = [] ∧ lines = []) ∧
      WellEnded lines

theorem wellEnded_sseLinesFrom {line bytes : Bytes} (h : NoBreak line) :
    WellEnded (sseLinesFrom line bytes) := by
  have hnone : NoBreak [] := noBreak_nil
  fun_induction sseLinesFrom line bytes with
  | case1 => trivial
  | case2 => exact ⟨h, .inr ⟨rfl, rfl⟩, trivial⟩
  | case3 line rest ih => exact ⟨h, .inl (by simp), ih hnone⟩
  | case4 line byte rest hcrlf hend ih =>
    refine ⟨h, .inl ?_, ih hnone⟩
    rcases hend with rfl | rfl <;> simp
  | case5 line byte rest hcrlf hend ih =>
    exact ih (h.append (forall_mem_singleton.mpr (not_or.mp hend)))

theorem wellEnded_sseLines (frame : Bytes) : WellEnded (sseLines frame) :=
  wellEnded_sseLinesFrom noBreak_nil

theorem sseLinesFrom_append {content : Bytes} (h : NoBreak content) (line more : Bytes) :
    sseLinesFrom line (content ++ more) = sseLinesFrom (line ++ content) more := by
  induction content generalizing line with
  | nil => simp
  | cons byte content ih =>
    have hbyte := h byte mem_cons_self
    have hrest : NoBreak content := fun b hb => h b (mem_cons_of_mem _ hb)
    rw [cons_append, sseLinesFrom.eq_3 _ _ _ fun _ hcr _ => hbyte.1 hcr,
      if_neg (not_or.mpr hbyte), ih hrest, append_assoc]
    rfl

theorem sseLinesFrom_lf (line rest : Bytes) :
    sseLinesFrom line (10 :: rest) = (line, [10]) :: sseLinesFrom [] rest := by
  rw [sseLinesFrom.eq_3 _ _ _ fun _ hcr _ => absurd hcr (by decide), if_pos (.inr rfl)]

theorem sseLinesFrom_cr {rest : Bytes} (h : rest.head? ≠ some 10) (line : Bytes) :
    sseLinesFrom line (13 :: rest) = (line, [13]) :: sseLinesFrom [] rest := by
  rw [sseLinesFrom.eq_3, if_pos (.inl rfl)]
  rintro _ _ rfl
  exact h rfl

/-- Contents that say something. -/
def contents (lines : List (Bytes × Bytes)) : List Bytes :=
  (lines.map (·.1)).filter (· ≠ [])

theorem contents_cons (content ending : Bytes) (lines : List (Bytes × Bytes)) :
    contents ((content, ending) :: lines) = (if content = [] then [] else [content]) ++
      contents lines := by
  by_cases h : content = [] <;> simp [contents, h]

variable {lines : List (Bytes × Bytes)}

/-- Only an empty line begins with its ending. -/
theorem eq_of_unlines_eq_lf {more : Bytes} (h : WellEnded lines)
    (hlf : unlines lines = 10 :: more) :
    ∃ lines', lines = ([], [10]) :: lines' ∧ more = unlines lines' ∧ WellEnded lines' := by
  rcases lines with _ | ⟨⟨_ | ⟨byte, content⟩, ending⟩, lines⟩
  · cases hlf
  · obtain ⟨-, hending, hrest⟩ := h
    rcases hending with hending | ⟨rfl, rfl⟩
    · simp only [mem_cons, not_mem_nil, or_false] at hending
      rcases hending with rfl | rfl | rfl
      · exact ⟨lines, rfl, (List.cons.inj hlf).2.symm, hrest⟩
      · cases hlf
      · cases hlf
    · cases hlf
  · exact absurd (List.cons.inj hlf).1 (h.1 byte mem_cons_self).2

theorem contents_unlines (h : WellEnded lines) :
    contents (sseLines (unlines lines)) = contents lines := by
  induction hn : lines.length using Nat.strong_induction_on generalizing lines with
  | _ _ ih =>
    subst hn
    rcases lines with _ | ⟨⟨content, ending⟩, lines⟩
    · rfl
    · obtain ⟨hcontent, hending, hrest⟩ := h
      have hscan : sseLines (unlines ((content, ending) :: lines)) =
          sseLinesFrom content (ending ++ unlines lines) := by
        rw [sseLines, unlines, flatMap_cons, append_assoc,
          sseLinesFrom_append hcontent, nil_append, unlines]
      rw [hscan, contents_cons, ← ih lines.length (by simp) hrest rfl]
      rcases hending with hending | ⟨rfl, rfl⟩
      · simp only [mem_cons, not_mem_nil, or_false] at hending
        rcases hending with rfl | rfl | rfl
        · rw [singleton_append, sseLinesFrom_lf, contents_cons, sseLines]
        · rcases hlf : unlines lines with _ | ⟨byte, more⟩
          · rw [append_nil, sseLinesFrom_cr (by simp), contents_cons, sseLines]
          · by_cases hbyte : byte = 10
            · -- the CR and the LF of an empty line become one ending
              subst hbyte
              obtain ⟨lines', rfl, rfl, hrest'⟩ := eq_of_unlines_eq_lf hrest hlf
              rw [← hlf, ih (lines'.length + 1) (by simp) hrest rfl, contents_cons [] [10],
                singleton_append, hlf, sseLinesFrom.eq_2, contents_cons, ← sseLines,
                ih lines'.length (by simp) hrest' rfl]
              rfl
            · rw [singleton_append, sseLinesFrom_cr (by simpa using hbyte), contents_cons, sseLines]
        · rw [cons_append, singleton_append, sseLinesFrom.eq_2, contents_cons, sseLines]
      · rw [nil_append, unlines, flatMap_nil, sseLinesFrom.eq_1]
        by_cases hempty : content = []
        · simp [hempty, sseLines, sseLinesFrom]
        · simp [hempty, contents, sseLines, sseLinesFrom]

/-! ## Data -/

variable {line : Bytes}

/-- A line without the field's name has no value of it. -/
theorem fieldValue_data_of_not (h : ¬Text.ascii "data:" <+: line) :
    fieldValue "data" line = none := by
  have hspace : ¬Text.ascii "data: " <+: line := fun hstart =>
    h (List.IsPrefix.trans ⟨[32], by decide⟩ hstart)
  rw [fieldValue, Text.afterStart, Text.afterStart, if_neg (by exact hspace), if_neg (by exact h)]
  rfl

@[simp] theorem fieldValue_data_append (value : Bytes) :
    fieldValue "data" (Text.ascii "data: " ++ value) = some value := by
  have hstart : Text.ascii ("data" ++ ": ") <+: Text.ascii "data: " ++ value := prefix_append _ _
  rfl

theorem joinData_of_not (h : ¬Text.ascii "data:" <+: line) (data : Bytes) :
    joinData data line = data := by
  rw [joinData, fieldValue_data_of_not h]

theorem foldl_joinData_contents (lines : List (Bytes × Bytes)) (data : Bytes) :
    (contents lines).foldl joinData data = (lines.map (·.1)).foldl joinData data := by
  induction lines generalizing data with
  | nil => rfl
  | cons _ _ ih =>
    rw [contents_cons, foldl_append, map_cons, foldl_cons, ih]
    split
    · rename_i hempty
      rw [hempty, joinData_of_not (by decide)]
      rfl
    · rfl

/-- The data of lines that were put together. -/
theorem sseDataPayload_unlines (h : WellEnded lines) :
    sseDataPayload (unlines lines) =
      if (dataOf lines).isEmpty then none else some (dataOf lines) := by
  have hdata : dataOf (sseLines (unlines lines)) = dataOf lines := by
    rw [dataOf, ← foldl_joinData_contents, contents_unlines h, foldl_joinData_contents, dataOf]
  rw [sseDataPayload, hdata]

theorem foldl_joinData_of_not (h : ∀ line ∈ lines, ¬Text.ascii "data:" <+: line.1) (data : Bytes) :
    (lines.map (·.1)).foldl joinData data = data := by
  induction lines with
  | nil => rfl
  | cons line _ ih =>
    rw [map_cons, foldl_cons, joinData_of_not (h line mem_cons_self)]
    exact ih fun line' hline => h line' (mem_cons_of_mem _ hline)

/-- Where there is data there is a line with it. -/
theorem exists_data_line (h : dataOf lines ≠ []) :
    ∃ line ∈ lines, Text.ascii "data:" <+: line.1 := by
  by_contra hnone
  exact h (foldl_joinData_of_not (fun line hline hdata => hnone ⟨line, hline, hdata⟩) [])

end ProviderCore.Protocol

/-
  Almanac.Proofs.Toml.Sections

  A file of sections that was printed is read line by line: a header gives the path of its section,
  a setting gives an entry, and the empty lines between sections give nothing (`Reads`). So the file
  describes the table that the sections make, one block after another (`parse?_of_print?`). A file
  can be printed if every setting has a text (`print?_isSome`).
-/
import Almanac.Proofs.Toml.Scalars
import Almanac.Toml.Document

namespace Almanac.Toml

/-! ## Keys -/

/-- A name that needs no quotes. -/
def IsBareName (name : String) : Prop := name.toList ≠ [] ∧ ∀ c ∈ name.toList, isBare c = true

instance (name : String) : Decidable (IsBareName name) :=
  decidable_of_iff (name.toList.isEmpty = false ∧ name.toList.all isBare = true)
    (by simp [IsBareName])

theorem IsBareName.cons {name : String} (h : IsBareName name) :
    ∃ c tail, name.toList = c :: tail ∧ isBare c = true := by
  obtain ⟨c, tail, heq⟩ := List.exists_cons_of_ne_nil h.1
  exact ⟨c, tail, heq, h.2 c (heq ▸ List.mem_cons_self)⟩

/-- A character that no key has is none of a name. -/
theorem ne_of_isBare {c d : Char} (hc : isBare c = true) (hd : isBare d = false) : c ≠ d := by
  rintro rfl
  simp [hc] at hd

theorem skipSpaces_cons {c : Char} (h : isSpace c = false) (tail : List Char) :
    skipSpaces (c :: tail) = c :: tail := by
  simp [skipSpaces, h]

theorem isSpace_of_isBare {c : Char} (h : isBare c = true) : isSpace c = false := by
  have hspace := ne_of_isBare h (show isBare ' ' = false by decide)
  have htab := ne_of_isBare h (show isBare '\t' = false by decide)
  simp [isSpace, hspace, htab]

/-- A name ends where no bare character follows. -/
theorem readKeyPart_bare {name : String} (hname : IsBareName name) {d : Char}
    (hd : isBare d = false) (rest : List Char) :
    readKeyPart (name.toList ++ d :: rest) = some (name, skipSpaces (d :: rest)) := by
  obtain ⟨c, tail, htext, hc⟩ := hname.cons
  have hdouble := ne_of_isBare hc (show isBare '"' = false by decide)
  have hsingle := ne_of_isBare hc (show isBare '\'' = false by decide)
  have htake : (name.toList ++ d :: rest).takeWhile isBare = name.toList := by
    rw [List.takeWhile_append_of_pos hname.2]
    simp [hd]
  have hskip : skipSpaces (name.toList ++ d :: rest) = name.toList ++ d :: rest := by
    rw [htext, List.cons_append]
    exact skipSpaces_cons (isSpace_of_isBare hc) _
  have hleft : (name.toList ++ d :: rest).drop name.toList.length = d :: rest := List.drop_left
  have hsome : name.toList.isEmpty = false := by simp [htext]
  have hback : String.ofList name.toList = name := String.ofList_toList
  unfold readKeyPart
  rw [hskip]
  dsimp only
  split
  · next heq =>
    rw [htext] at heq
    exact absurd (List.cons.inj heq).1 hdouble
  · next heq =>
    rw [htext] at heq
    exact absurd (List.cons.inj heq).1 hsingle
  · rw [htake, hleft, hback]
    simp [hsome]

/-- The text of a path: its names with dots between them. -/
theorem toList_intercalate_cons (first : String) (others : List String) :
    (String.intercalate "." (first :: others)).toList =
      first.toList ++ others.flatMap fun name => '.' :: name.toList := by
  induction others generalizing first with
  | nil => simp
  | cons next others ih =>
      rw [String.intercalate_cons_cons, String.toList_append, String.toList_append, ih]
      simp

/-- A mark that ends a key. -/
def EndsKey (d : Char) : Prop := isBare d = false ∧ isSpace d = false ∧ d ≠ '.'

/-- What stands in a key behind its first name. -/
def dotted (others : List String) : List Char := others.flatMap fun name => '.' :: name.toList

theorem dotted_cons (name : String) (others : List String) :
    dotted (name :: others) = '.' :: (name.toList ++ dotted others) := rfl

theorem length_le_dotted (others : List String) : others.length ≤ (dotted others).length := by
  induction others with
  | nil => exact Nat.le_refl 0
  | cons name others ih =>
      rw [dotted_cons, List.length_cons, List.length_cons, List.length_append]
      omega

section Key

variable {d : Char} (hd : EndsKey d) (rest : List Char)
include hd

/-- Behind a name of a key there is a dot, or the end of the key. -/
theorem readKeyPart_dotted {name : String} (hname : IsBareName name) (others : List String) :
    readKeyPart (name.toList ++ (dotted others ++ d :: rest)) =
      some (name, dotted others ++ d :: rest) := by
  cases others with
  | nil =>
      have hpart := readKeyPart_bare hname hd.1 rest
      rw [skipSpaces_cons hd.2.1] at hpart
      exact hpart
  | cons next others =>
      rw [dotted_cons, List.cons_append, readKeyPart_bare hname (by decide),
        skipSpaces_cons (by decide)]

theorem readKeyRest_dotted {others : List String} (hothers : ∀ name ∈ others, IsBareName name)
    {fuel : Nat} (hfuel : others.length < fuel) :
    readKeyRest fuel (dotted others ++ d :: rest) = some (others, d :: rest) := by
  obtain ⟨fuel, rfl⟩ : ∃ f, fuel = f + 1 := ⟨fuel - 1, by omega⟩
  induction others generalizing fuel with
  | nil => simp [dotted, readKeyRest, hd.2.2]
  | cons name others ih =>
      rw [List.length_cons] at hfuel
      obtain ⟨fuel, rfl⟩ : ∃ f, fuel = f + 1 := ⟨fuel - 1, by omega⟩
      have hlater := ih (fun n hn => hothers n (List.mem_cons_of_mem _ hn)) fuel (by omega)
      have hpart := readKeyPart_dotted hd rest (hothers name List.mem_cons_self) others
      rw [dotted_cons, List.cons_append, List.append_assoc, readKeyRest, hpart]
      simp only [Option.bind_eq_bind, Option.bind_some, hlater]

/-- A path in front of the mark that ends it. -/
theorem readKey_dotted {first : String} {others : List String} (hfirst : IsBareName first)
    (hothers : ∀ name ∈ others, IsBareName name) (hdepth : others.length + 1 < depthLimit) :
    readKey (first.toList ++ (dotted others ++ d :: rest)) =
      some (((first :: others).dropLast, (first :: others).getLastD first), d :: rest) := by
  have hpart := readKeyPart_dotted hd rest hfirst others
  have hrest := readKeyRest_dotted hd rest hothers
    (show others.length < (first.toList ++ (dotted others ++ d :: rest)).length + 1 by
      have hle := length_le_dotted others
      simp only [List.length_append]
      omega)
  unfold readKey
  rw [hpart]
  simp only [Option.bind_eq_bind, Option.bind_some, hrest, List.length_cons]
  rw [if_neg (by omega)]

end Key

/-! ## Lines -/

/-- A setting as an entry of a table. -/
def entryOf (setting : String × Tree) : Entry := { key := setting.1, value := setting.2 }

theorem readValue_scalar {v : Tree} {cs : List Char} (h : scalarText? v = some cs)
    (rest : List Char) (depth : Nat) :
    readValue depth (cs ++ '\n' :: rest) = some (v, '\n' :: rest) := by
  have hread := readScalar_scalarText? h rest
  obtain ⟨c, tail, rfl, -, hlist, htable⟩ := startsScalar_scalarText? h
  cases depth with
  | zero => exact hread
  | succ depth =>
      rw [readValue]
      dsimp only [List.cons_append]
      split
      · next heq => exact absurd (List.cons.inj heq).1 hlist
      · next heq => exact absurd (List.cons.inj heq).1 htable
      · exact hread

/-- A name in front of the equals sign of its setting. -/
theorem readKey_name {name : String} (hname : IsBareName name) (rest : List Char) :
    readKey (name.toList ++ ' ' :: '=' :: rest) = some (([], name), '=' :: rest) := by
  have hpart := readKeyPart_bare hname (show isBare ' ' = false by decide) ('=' :: rest)
  have hskip : skipSpaces (' ' :: '=' :: rest) = '=' :: rest := by simp [skipSpaces, isSpace]
  rw [hskip] at hpart
  unfold readKey
  rw [hpart]
  rfl

theorem readEntry_setting {name : String} (hname : IsBareName name) {v : Tree} {cs : List Char}
    (h : scalarText? v = some cs) (rest : List Char) (depth : Nat) :
    readEntry (readValue depth) (name.toList ++ ' ' :: '=' :: ' ' :: (cs ++ '\n' :: rest)) =
      some (entryOf (name, v), '\n' :: rest) := by
  have hskip : skipSpaces (' ' :: (cs ++ '\n' :: rest)) = cs ++ '\n' :: rest := by
    obtain ⟨c, tail, rfl, hc, -⟩ := startsScalar_scalarText? h
    simp [skipSpaces, isSpace, show (c == ' ' || c == '\t') = false from hc]
  have hmark : Net.readMark '=' ('=' :: ' ' :: (cs ++ '\n' :: rest)) =
      some (' ' :: (cs ++ '\n' :: rest)) := rfl
  simp only [readEntry, readKey_name hname, Option.bind_eq_bind, Option.bind_some, hmark, hskip,
    readValue_scalar h]
  rfl

theorem settingText?_eq (name : String) (v : Tree) :
    settingText? name v =
      (scalarText? v).map fun cs => name.toList ++ ' ' :: '=' :: ' ' :: (cs ++ ['\n']) := by
  cases h : scalarText? v <;> simp [settingText?, h]

/-- A line that begins with a name is no header. -/
theorem readLine_name {name : String} (hname : IsBareName name) (rest : List Char) :
    readLine (name.toList ++ rest) =
      (readEntry (readValue (depthLimit - 1)) (name.toList ++ rest)).bind fun read =>
        (restOfLine? read.2).map fun rest => (.entry read.1, rest) := by
  obtain ⟨c, tail, htext, hc⟩ := hname.cons
  have hopen := ne_of_isBare hc (show isBare '[' = false by decide)
  unfold readLine
  rw [htext, List.cons_append]
  split
  · next heq => exact absurd (List.cons.inj heq).1 hopen
  · next heq => exact absurd (List.cons.inj heq).1 hopen
  · cases readEntry (readValue (depthLimit - 1)) (c :: (tail ++ rest)) with
    | none => rfl
    | some read => cases h : restOfLine? read.2 <;> simp [h]

/-- A setting is read as an entry. -/
theorem readLine_setting {name : String} (hname : IsBareName name) {v : Tree} {cs : List Char}
    (h : settingText? name v = some cs) (rest : List Char) :
    readLine (cs ++ rest) = some (.entry (entryOf (name, v)), rest) := by
  rw [settingText?_eq] at h
  obtain ⟨text, htext, rfl⟩ := Option.map_eq_some_iff.mp h
  have hshape : name.toList ++ ' ' :: '=' :: ' ' :: (text ++ ['\n']) ++ rest =
      name.toList ++ ' ' :: '=' :: ' ' :: (text ++ '\n' :: rest) := by simp
  rw [hshape, readLine_name hname, readEntry_setting hname htext]
  rfl

/-- The header of a section is read as one. -/
theorem readLine_header {first : String} {others : List String} (hfirst : IsBareName first)
    (hothers : ∀ name ∈ others, IsBareName name) (hdepth : others.length + 1 < depthLimit)
    (rest : List Char) :
    readLine ('[' :: (first.toList ++ (dotted others ++ ']' :: '\n' :: rest))) =
      some (.header (first :: others).dropLast ((first :: others).getLastD first), rest) := by
  have hkey := readKey_dotted (d := ']') ⟨by decide, by decide, by decide⟩ ('\n' :: rest) hfirst
    hothers hdepth
  have hclose : readWord "]" (']' :: '\n' :: rest) = some ('\n' :: rest) := rfl
  have hheader : readHeaderKey "]" (first.toList ++ (dotted others ++ ']' :: '\n' :: rest)) =
      some (((first :: others).dropLast, (first :: others).getLastD first), '\n' :: rest) := by
    unfold readHeaderKey
    rw [hkey]
    simp only [Option.bind_eq_bind, Option.bind_some, hclose]
  obtain ⟨c, tail, htext, hc⟩ := hfirst.cons
  have hopen := ne_of_isBare hc (show isBare '[' = false by decide)
  unfold readLine
  split
  · next heq =>
    -- a second bracket would be the first character of the path
    rw [htext] at heq
    exact absurd (List.cons.inj (List.cons.inj heq).2).1 hopen
  · next heq =>
    obtain rfl := (List.cons.inj heq).2
    rw [hheader]
    rfl
  · next hno => exact absurd rfl (hno _)

/-! ## Rows of lines -/

/-- A text that is read as these lines, by whatever fuel covers it. -/
def Reads (cs : List Char) (lines : List Line) : Prop :=
  ∀ fuel, cs.length < fuel → readLines fuel cs = some lines

theorem reads_nil : Reads [] [] := by
  intro fuel hfuel
  obtain ⟨fuel, rfl⟩ : ∃ f, fuel = f + 1 := ⟨fuel - 1, by omega⟩
  rfl

theorem Reads.blank {cs : List Char} {lines : List Line} (h : Reads cs lines) :
    Reads ('\n' :: cs) lines := by
  intro fuel hfuel
  rw [List.length_cons] at hfuel
  obtain ⟨fuel, rfl⟩ : ∃ f, fuel = f + 1 := ⟨fuel - 1, by omega⟩
  have hlater := h fuel (by omega)
  rw [readLines]
  dsimp only
  rw [skipSpaces_cons (by decide)]
  exact hlater

/-- The first character of a line that says something. -/
def StartsLine (c : Char) : Prop := isSpace c = false ∧ c ≠ '#' ∧ c ≠ '\n' ∧ c ≠ '\r'

theorem StartsLine.of_isBare {c : Char} (h : isBare c = true) : StartsLine c :=
  ⟨isSpace_of_isBare h, ne_of_isBare h (by decide), ne_of_isBare h (by decide),
    ne_of_isBare h (by decide)⟩

theorem Reads.line {c : Char} {tail rest : List Char} {line : Line} {lines : List Line}
    (hstart : StartsLine c) (hread : readLine (c :: tail) = some (line, rest))
    (hshorter : rest.length ≤ tail.length) (h : Reads rest lines) :
    Reads (c :: tail) (line :: lines) := by
  intro fuel hfuel
  rw [List.length_cons] at hfuel
  obtain ⟨fuel, rfl⟩ : ∃ f, fuel = f + 1 := ⟨fuel - 1, by omega⟩
  have hlater := h fuel (by omega)
  obtain ⟨hspace, hcomment, hline, hreturn⟩ := hstart
  rw [readLines]
  dsimp only
  rw [skipSpaces_cons hspace]
  simp [hcomment, hline, hreturn, hread, hlater]

/-! ## Sections -/

/-- A section whose names are bare, below a path that is not too long. -/
structure Section.WellFormed (s : Section) : Prop where
  path_ne_nil : s.path ≠ []
  path_bare : ∀ name ∈ s.path, IsBareName name
  path_short : s.path.length < depthLimit
  settings_bare : ∀ setting ∈ s.settings, IsBareName setting.1

/-- The entries of a section. -/
def Section.entries (s : Section) : List Entry := s.settings.map entryOf

/-- The lines of a section. -/
def Section.lines (s : Section) : List Line :=
  .header s.path.dropLast (s.path.getLastD "") :: s.entries.map .entry

/-- The block that a section makes. -/
def Section.block (s : Section) : Block := ⟨false, s.path.dropLast, s.path.getLastD "", s.entries⟩

theorem reads_settings {settings : List (String × Tree)}
    (hbare : ∀ setting ∈ settings, IsBareName setting.1) {cs : List Char}
    (h : settingsText? settings = some cs) {rest : List Char} {lines : List Line}
    (hrest : Reads rest lines) :
    Reads (cs ++ rest) ((settings.map entryOf).map .entry ++ lines) := by
  induction settings generalizing cs with
  | nil =>
      obtain rfl := Option.some.inj h
      exact hrest
  | cons setting settings ih =>
      obtain ⟨name, v⟩ := setting
      have hname : IsBareName name := hbare (name, v) List.mem_cons_self
      simp only [settingsText?, Option.bind_eq_bind, Option.bind_eq_some_iff, Option.some.injEq]
        at h
      obtain ⟨line, hline, later, hlater, rfl⟩ := h
      have hreads := ih (fun s hs => hbare s (List.mem_cons_of_mem _ hs)) hlater
      have hread := readLine_setting hname hline (later ++ rest)
      rw [List.append_assoc]
      -- the line begins with the first character of its name
      obtain ⟨c, tail, rfl, hc⟩ : ∃ c tail, line = c :: tail ∧ isBare c = true := by
        obtain ⟨c, tail, htext, hc⟩ := hname.cons
        rw [settingText?_eq, htext] at hline
        obtain ⟨text, -, rfl⟩ := Option.map_eq_some_iff.mp hline
        exact ⟨c, _, rfl, hc⟩
      apply Reads.line (.of_isBare hc) hread _ hreads
      have hlength : (tail ++ (later ++ rest)).length = tail.length + (later ++ rest).length :=
        List.length_append
      exact hlength ▸ Nat.le_add_left _ _

theorem reads_section {s : Section} (hs : s.WellFormed) {cs : List Char} (h : s.text? = some cs)
    {rest : List Char} {lines : List Line} (hrest : Reads rest lines) :
    Reads (cs ++ rest) (s.lines ++ lines) := by
  obtain ⟨path, settings⟩ := s
  obtain ⟨first, others, rfl⟩ := List.exists_cons_of_ne_nil hs.path_ne_nil
  simp only [Section.text?, Option.bind_eq_bind, Option.bind_eq_some_iff, Option.some.injEq] at h
  obtain ⟨body, hbody, rfl⟩ := h
  have hreads := reads_settings hs.settings_bare hbody hrest
  have hread := readLine_header (hs.path_bare first List.mem_cons_self)
    (fun name hname => hs.path_bare name (List.mem_cons_of_mem _ hname)) hs.path_short
    (body ++ rest)
  have hshape : '[' :: (String.intercalate "." (first :: others)).toList ++ [']', '\n'] ++ body ++
      rest = '[' :: (first.toList ++ (dotted others ++ ']' :: '\n' :: (body ++ rest))) := by
    rw [toList_intercalate_cons]
    simp [dotted]
  rw [hshape]
  apply Reads.line ⟨by decide, by decide, by decide, by decide⟩ hread _ hreads
  simp only [List.length_append, List.length_cons]
  omega

/-- Printed sections are read as their lines. -/
theorem reads_sections {sections : List Section} (hsections : ∀ s ∈ sections, s.WellFormed)
    {cs : List Char} (h : sectionsText? sections = some cs) :
    Reads cs (sections.flatMap Section.lines) := by
  induction sections generalizing cs with
  | nil =>
      obtain rfl := Option.some.inj h
      exact reads_nil
  | cons s sections ih =>
      have hs := hsections s List.mem_cons_self
      cases sections with
      | nil =>
          have hreads := reads_section hs h reads_nil
          simpa using hreads
      | cons next sections =>
          simp only [sectionsText?, Option.bind_eq_bind, Option.bind_eq_some_iff,
            Option.some.injEq] at h
          obtain ⟨text, htext, later, hlater, rfl⟩ := h
          have hreads := ih (fun t ht => hsections t (List.mem_cons_of_mem _ ht)) hlater
          exact reads_section hs htext hreads.blank

/-- The lines of sections make their blocks, and no entries above. -/
theorem blocksOf_lines (sections : List Section) :
    blocksOf (sections.flatMap Section.lines) = ([], sections.map Section.block) := by
  have hentries : ∀ (entries : List Entry) (lines : List Line) (blocks : List Block),
      blocksOf lines = ([], blocks) →
        blocksOf (entries.map .entry ++ lines) = (entries, blocks) := by
    intro entries lines blocks hblocks
    induction entries with
    | nil => exact hblocks
    | cons e entries ih => simp [blocksOf, ih]
  induction sections with
  | nil => rfl
  | cons s sections ih =>
      have hsection := hentries s.entries _ _ ih
      rw [List.flatMap_cons, Section.lines, List.cons_append, blocksOf, hsection]
      rfl

/-! ## Files -/

theorem skipMark_sections {sections : List Section} {cs : List Char}
    (h : sectionsText? sections = some cs) : skipMark cs = cs := by
  have hstart : cs = [] ∨ ∃ tail, cs = '[' :: tail := by
    match sections with
    | [] =>
        obtain rfl := Option.some.inj h
        exact .inl rfl
    | [s] =>
        simp only [sectionsText?, Section.text?, Option.bind_eq_bind, Option.bind_eq_some_iff,
          Option.some.injEq] at h
        obtain ⟨body, -, rfl⟩ := h
        exact .inr ⟨_, rfl⟩
    | s :: next :: rest =>
        simp only [sectionsText?, Section.text?, Option.bind_eq_bind, Option.bind_eq_some_iff,
          Option.some.injEq] at h
        obtain ⟨_, ⟨body, -, rfl⟩, later, -, rfl⟩ := h
        exact .inr ⟨_, rfl⟩
  rcases hstart with rfl | ⟨tail, rfl⟩
  · rfl
  · rfl

/-- A printed file describes the table that its sections make, one block after another. -/
theorem parse?_of_print? {sections : List Section} (hsections : ∀ s ∈ sections, s.WellFormed)
    {text : String} (h : print? sections = some text) :
    parse? text = (addBlocks [] (sections.map Section.block)).map fun entries =>
      .table (treesOf entries) := by
  obtain ⟨cs, hcs, rfl⟩ := Option.map_eq_some_iff.mp h
  have hread := reads_sections hsections hcs (cs.length + 1) (Nat.lt_succ_self _)
  have hback : (String.ofList cs).toList = cs := String.toList_ofList
  unfold parse?
  simp only [hback, skipMark_sections hcs, hread, Option.bind_eq_bind, Option.bind_some,
    blocksOf_lines, fill]
  cases addBlocks [] (sections.map Section.block) <;> rfl

theorem settingsText?_isSome (settings : List (String × Tree)) :
    (settingsText? settings).isSome ↔ ∀ setting ∈ settings, (scalarText? setting.2).isSome := by
  induction settings with
  | nil => simp [settingsText?]
  | cons setting settings ih =>
      rw [List.forall_mem_cons, ← ih, settingsText?, settingText?_eq]
      cases scalarText? setting.2 <;> cases settingsText? settings <;> simp

/-- A file can be printed if every setting has a text. -/
theorem print?_isSome (sections : List Section) :
    (print? sections).isSome ↔
      ∀ s ∈ sections, ∀ setting ∈ s.settings, (scalarText? setting.2).isSome := by
  have hsection : ∀ s : Section, s.text?.isSome ↔
      ∀ setting ∈ s.settings, (scalarText? setting.2).isSome := by
    intro s
    rw [← settingsText?_isSome, Section.text?]
    cases settingsText? s.settings <;> simp
  rw [print?, Option.isSome_map]
  induction sections with
  | nil => simp [sectionsText?]
  | cons s sections ih =>
      cases sections with
      | nil =>
          rw [sectionsText?, List.forall_mem_singleton]
          exact hsection s
      | cons next sections =>
          rw [List.forall_mem_cons]
          apply Iff.trans _ (and_congr (hsection s) ih)
          rw [sectionsText?]
          · cases s.text? <;> cases sectionsText? (next :: sections) <;> simp
          · exact List.cons_ne_nil next sections

end Almanac.Toml

/-
# Theory.Exposition -- the text format that a metrics scraper reads

A family of samples is announced by a help line and a type line and followed by its samples, each
a name, labels in braces and a value.  A scraper takes the text apart line by line and refuses it
if a sample belongs to no family, a family comes twice or a series does.

A text that is put together from families it can hold is read back as these families
(`read_render`).
-/
import Mathlib

namespace Clumsy.Theory.Exposition

set_option autoImplicit false

structure Sample where
  name   : List Char
  labels : List (List Char × List Char)
  value  : List Char
  deriving DecidableEq

structure Family where
  name    : List Char
  help    : List Char
  kind    : List Char
  samples : List Sample
  deriving DecidableEq

/-! ## Writing -/

def labelText (label : List Char × List Char) : List Char :=
  label.1 ++ '=' :: '"' :: (label.2 ++ ['"'])

/-- Labels behind the first brace. -/
def labelsText : List (List Char × List Char) → List Char
  | [] => ['}']
  | [label] => labelText label ++ ['}']
  | label :: labels => labelText label ++ ',' :: labelsText labels

def Sample.text (s : Sample) : List Char :=
  s.name ++ (if s.labels = [] then [] else '{' :: labelsText s.labels) ++ ' ' :: s.value

def helpWord : List Char := "# HELP ".toList
def typeWord : List Char := "# TYPE ".toList

def Family.lines (f : Family) : List (List Char) :=
  (helpWord ++ f.name ++ ' ' :: f.help) :: (typeWord ++ f.name ++ ' ' :: f.kind) ::
    f.samples.map Sample.text

def render (fs : List Family) : List Char := fs.flatMap fun f => f.lines.flatMap (· ++ ['\n'])

/-! ## Reading -/

/-- The whole lines. -/
def linesOf : List Char → List Char → List (List Char)
  | _, [] => []
  | line, c :: s => if c = '\n' then line :: linesOf [] s else linesOf (line ++ [c]) s

/-- Up to a character, and what is behind it. -/
def upTo (stop : Char) (s : List Char) : Option (List Char × List Char) :=
  let front := s.takeWhile (· != stop)
  match s.drop front.length with
  | [] => none
  | _ :: rest => some (front, rest)

/-- Labels behind the first brace, and what is behind the last. -/
def readLabels : Nat → List Char → Option (List (List Char × List Char) × List Char)
  | 0, _ => none
  | fuel + 1, s => do
      let (key, behind) ← upTo '=' s
      let ('"' :: quoted) := behind | none
      let (value, rest) ← upTo '"' quoted
      match rest with
      | '}' :: rest => some ([(key, value)], rest)
      | ',' :: rest =>
          (readLabels fuel rest).map fun (labels, rest) => ((key, value) :: labels, rest)
      | _ => none

def endsName (c : Char) : Bool := c == '{' || c == ' '

def readSample (line : List Char) : Option Sample :=
  let name := line.takeWhile fun c => !endsName c
  match line.drop name.length with
  | ' ' :: value => some { name, labels := [], value }
  | '{' :: s => do
      let (labels, rest) ← readLabels s.length s
      let (' ' :: value) := rest | none
      some { name, labels, value }
  | _ => none

inductive Line where
  | help (name text : List Char)
  | type (name kind : List Char)
  | sample (s : Sample)

/-- A line that begins with a word, cut at the next blank. -/
def announced (word line : List Char) : Option (List Char × List Char) :=
  if word.isPrefixOf line then upTo ' ' (line.drop word.length) else none

def readLine (line : List Char) : Option Line :=
  match announced helpWord line with
  | some (name, text) => some (.help name text)
  | none =>
      match announced typeWord line with
      | some (name, kind) => some (.type name kind)
      | none => (readSample line).map .sample

/-- Which samples may stand below a family. -/
def belongs (name kind own : List Char) : Bool :=
  own == name ||
    (kind == "histogram".toList &&
      ["_bucket", "_sum", "_count"].any fun suffix => own == name ++ suffix.toList)

/-- The samples in front of the first family, and the families. -/
def gather : List Line → Option (List Sample × List Family)
  | [] => some ([], [])
  | .sample s :: rest => (gather rest).map fun (samples, fs) => (s :: samples, fs)
  | .help name help :: .type name' kind :: rest =>
      if name = name' then
        (gather rest).bind fun (samples, fs) =>
          if samples.all fun s => belongs name kind s.name then
            some ([], { name, help, kind, samples } :: fs)
          else none
      else none
  | _ => none

def series (fs : List Family) : List (List Char × List (List Char × List Char)) :=
  fs.flatMap fun f => f.samples.map fun s => (s.name, s.labels)

/-- No family and no series comes twice. -/
def Single (fs : List Family) : Prop := (fs.map Family.name).Nodup ∧ (series fs).Nodup

instance (fs : List Family) : Decidable (Single fs) := inferInstanceAs (Decidable (_ ∧ _))

def read (text : List Char) : Option (List Family) := do
  let lines ← (linesOf [] text).mapM readLine
  let ([], fs) ← gather lines | none
  if Single fs then some fs else none

/-! ## What a text can hold -/

/-- A label whose key ends before its sign and whose value before its quote. -/
structure LabelFits (label : List Char × List Char) : Prop where
  key   : '=' ∉ label.1 ∧ '\n' ∉ label.1
  value : '"' ∉ label.2 ∧ '\n' ∉ label.2

structure Sample.Fits (s : Sample) : Prop where
  name   : ∀ c ∈ s.name, endsName c = false ∧ c ≠ '#' ∧ c ≠ '\n'
  labels : ∀ label ∈ s.labels, LabelFits label
  value  : '\n' ∉ s.value

structure Family.Fits (f : Family) : Prop where
  name    : ' ' ∉ f.name ∧ '\n' ∉ f.name
  help    : '\n' ∉ f.help
  kind    : '\n' ∉ f.kind
  samples : ∀ s ∈ f.samples, s.Fits
  belong  : ∀ s ∈ f.samples, belongs f.name f.kind s.name = true

/-! ## Lines -/

theorem linesOf_line {text : List Char} (clean : '\n' ∉ text) (line s : List Char) :
    linesOf line (text ++ '\n' :: s) = (line ++ text) :: linesOf [] s := by
  induction text generalizing line with
  | nil => simp [linesOf]
  | cons c text ih =>
      rw [List.mem_cons, not_or] at clean
      rw [List.cons_append, linesOf, if_neg (Ne.symm clean.1), ih clean.2, List.append_assoc]
      rfl

theorem linesOf_lines {ls : List (List Char)} (clean : ∀ l ∈ ls, '\n' ∉ l) :
    linesOf [] (ls.flatMap (· ++ ['\n'])) = ls := by
  induction ls with
  | nil => rfl
  | cons l ls ih =>
      rw [List.flatMap_cons, List.append_assoc, List.singleton_append,
        linesOf_line (clean l List.mem_cons_self), List.nil_append,
        ih fun l member => clean l (List.mem_cons_of_mem _ member)]

theorem upTo_stop {stop : Char} {front : List Char} (clean : stop ∉ front) (rest : List Char) :
    upTo stop (front ++ stop :: rest) = some (front, rest) := by
  have others : ∀ c ∈ front, (c != stop) = true := by
    intro c member
    rw [bne_iff_ne]
    rintro rfl
    exact clean member
  have taken : (front ++ stop :: rest).takeWhile (· != stop) = front := by
    rw [List.takeWhile_append_of_pos others, List.takeWhile_cons_of_neg (by simp),
      List.append_nil]
  unfold upTo
  rw [taken]
  simp

/-! ## A sample -/

theorem labelText_cut {label : List Char × List Char} (fits : LabelFits label) (rest : List Char) :
    upTo '=' (labelText label ++ rest) = some (label.1, '"' :: (label.2 ++ '"' :: rest)) ∧
      upTo '"' (label.2 ++ '"' :: rest) = some (label.2, rest) := by
  have text : labelText label ++ rest = label.1 ++ '=' :: '"' :: (label.2 ++ '"' :: rest) := by
    simp [labelText]
  rw [text]
  exact ⟨upTo_stop fits.key.1 _, upTo_stop fits.value.1 _⟩

theorem readLabels_text {labels : List (List Char × List Char)} (some_ : labels ≠ [])
    (fit : ∀ label ∈ labels, LabelFits label) {fuel : Nat} (enough : labels.length ≤ fuel)
    (rest : List Char) : readLabels fuel (labelsText labels ++ rest) = some (labels, rest) := by
  induction labels generalizing fuel with
  | nil => exact absurd rfl some_
  | cons label labels ih =>
      obtain ⟨fuel, rfl⟩ : ∃ n, fuel = n + 1 :=
        ⟨fuel - 1, by rw [List.length_cons] at enough; omega⟩
      cases labels with
      | nil =>
          obtain ⟨key, value⟩ := labelText_cut (fit label List.mem_cons_self) ('}' :: rest)
          have text : labelsText [label] ++ rest = labelText label ++ '}' :: rest := by
            simp [labelsText]
          rw [text, readLabels, key]
          show (upTo '"' _).bind _ = _
          rw [value]
          rfl
      | cons second labels =>
          have later := ih (List.cons_ne_nil _ _)
            (fun l member => fit l (List.mem_cons_of_mem _ member))
            (Nat.le_of_succ_le_succ enough)
          obtain ⟨key, value⟩ := labelText_cut (fit label List.mem_cons_self)
            (',' :: (labelsText (second :: labels) ++ rest))
          have text : labelsText (label :: second :: labels) ++ rest =
              labelText label ++ ',' :: (labelsText (second :: labels) ++ rest) := by
            simp [labelsText]
          rw [text, readLabels, key]
          show (upTo '"' _).bind _ = _
          rw [value]
          show (readLabels fuel _).map _ = _
          rw [later]
          rfl

theorem labelsText_length (labels : List (List Char × List Char)) :
    labels.length ≤ (labelsText labels).length := by
  induction labels with
  | nil => exact Nat.zero_le _
  | cons label labels ih =>
      cases labels with
      | nil => simp [labelsText]
      | cons second labels =>
          simp only [labelsText, List.length_append, List.length_cons] at ih ⊢
          omega

theorem takeWhile_name {name : List Char} (plain : ∀ c ∈ name, endsName c = false) {c : Char}
    (ends : endsName c = true) (rest : List Char) :
    (name ++ c :: rest).takeWhile (fun c => !endsName c) = name := by
  rw [List.takeWhile_append_of_pos fun c member => by rw [plain c member]; rfl,
    List.takeWhile_cons_of_neg (by simp [ends]), List.append_nil]

theorem readSample_text {s : Sample} (fits : s.Fits) : readSample s.text = some s := by
  have plain : ∀ c ∈ s.name, endsName c = false := fun c member => (fits.name c member).1
  obtain ⟨name, labels, value⟩ := s
  unfold readSample Sample.text
  by_cases none : labels = []
  · subst none
    simp only [if_pos, List.append_nil]
    rw [takeWhile_name plain (by decide)]
    simp
  · simp only [if_neg none, List.cons_append, List.append_assoc]
    rw [takeWhile_name plain (by decide)]
    simp only [List.drop_left]
    have enough : labels.length ≤ (labelsText labels ++ ' ' :: value).length := by
      have := labelsText_length labels
      rw [List.length_append]
      omega
    rw [readLabels_text none fits.labels enough]
    rfl

/-! ## A family -/

theorem announced_word (word : List Char) {name : List Char} (clean : ' ' ∉ name)
    (text : List Char) : announced word (word ++ name ++ ' ' :: text) = some (name, text) := by
  unfold announced
  rw [List.append_assoc, if_pos (by rw [List.isPrefixOf_iff_prefix]; exact List.prefix_append _ _),
    List.drop_left, upTo_stop clean]

/-- A line with another first character is announced by no word. -/
theorem announced_other {word line : List Char} (begins : word.head? = some '#')
    (other : line.head? ≠ some '#') : announced word line = none := by
  unfold announced
  rw [if_neg]
  rw [List.isPrefixOf_iff_prefix]
  rintro ⟨rest, rfl⟩
  cases word with
  | nil => cases begins
  | cons c word => exact other begins

theorem readLine_help {name : List Char} (clean : ' ' ∉ name) (text : List Char) :
    readLine (helpWord ++ name ++ ' ' :: text) = some (.help name text) := by
  rw [readLine, announced_word helpWord clean]

theorem readLine_type {name : List Char} (clean : ' ' ∉ name) (kind : List Char) :
    readLine (typeWord ++ name ++ ' ' :: kind) = some (.type name kind) := by
  have not_ : announced helpWord (typeWord ++ name ++ ' ' :: kind) = none := by
    unfold announced
    rw [if_neg]
    rw [List.append_assoc]
    simp [helpWord, typeWord, List.isPrefixOf]
  rw [readLine, not_, announced_word typeWord clean]

theorem readLine_sample {s : Sample} (fits : s.Fits) : readLine s.text = some (.sample s) := by
  have other : s.text.head? ≠ some '#' := by
    unfold Sample.text
    cases named : s.name with
    | cons c name =>
        intro same
        obtain rfl := Option.some.inj same
        exact (fits.name '#' (named ▸ List.mem_cons_self)).2.1 rfl
    | nil =>
        split_ifs
        · simp
        · simp
  have help : announced helpWord s.text = none := announced_other (by decide) other
  have type : announced typeWord s.text = none := announced_other (by decide) other
  rw [readLine, help, type]
  show (readSample s.text).map Line.sample = _
  rw [readSample_text fits]
  rfl

/-- The lines of a family as a scraper takes them. -/
def Family.read (f : Family) : List Line :=
  .help f.name f.help :: .type f.name f.kind :: f.samples.map .sample

theorem readLine_family {f : Family} (fits : f.Fits) : f.lines.mapM readLine = some f.read := by
  have samples : (f.samples.map Sample.text).mapM readLine = some (f.samples.map .sample) := by
    have each : ∀ ss : List Sample, (∀ s ∈ ss, s.Fits) →
        (ss.map Sample.text).mapM readLine = some (ss.map .sample) := by
      intro ss all
      induction ss with
      | nil => rfl
      | cons s ss ih =>
          rw [List.map_cons, List.mapM_cons, readLine_sample (all s List.mem_cons_self),
            ih fun t member => all t (List.mem_cons_of_mem _ member)]
          rfl
    exact each f.samples fits.samples
  rw [Family.lines, List.mapM_cons, readLine_help fits.name.1, List.mapM_cons,
    readLine_type fits.name.1, samples]
  rfl

theorem readLine_families {fs : List Family} (fit : ∀ f ∈ fs, f.Fits) :
    (fs.flatMap Family.lines).mapM readLine = some (fs.flatMap Family.read) := by
  induction fs with
  | nil => rfl
  | cons f fs ih =>
      rw [List.flatMap_cons, List.mapM_append, readLine_family (fit f List.mem_cons_self),
        ih fun g member => fit g (List.mem_cons_of_mem _ member)]
      rfl

theorem gather_samples (ss : List Sample) (rest : List Line) :
    gather (ss.map .sample ++ rest) =
      (gather rest).map fun (samples, fs) => (ss ++ samples, fs) := by
  induction ss with
  | nil =>
      rw [List.map_nil, List.nil_append]
      cases gather rest <;> rfl
  | cons s ss ih =>
      rw [List.map_cons, List.cons_append, gather, ih]
      cases gather rest <;> rfl

theorem gather_families {fs : List Family} (fit : ∀ f ∈ fs, f.Fits) :
    gather (fs.flatMap Family.read) = some ([], fs) := by
  induction fs with
  | nil => rfl
  | cons f fs ih =>
      have later := ih fun g member => fit g (List.mem_cons_of_mem _ member)
      rw [List.flatMap_cons, Family.read, List.cons_append, List.cons_append, gather, if_pos rfl,
        gather_samples, later]
      have belong := List.all_eq_true.2 (fit f List.mem_cons_self).belong
      simp only [Option.map_some, Option.bind_some, List.append_nil]
      rw [if_pos belong]

theorem labelsText_clean {labels : List (List Char × List Char)}
    (fit : ∀ label ∈ labels, LabelFits label) : '\n' ∉ labelsText labels := by
  induction labels with
  | nil => simp [labelsText]
  | cons label labels ih =>
      have here := fit label List.mem_cons_self
      have text : '\n' ∉ labelText label := by
        simp [labelText, here.key.2, here.value.2]
      cases labels with
      | nil => simp [labelsText, text]
      | cons second labels =>
          have later := ih fun l member => fit l (List.mem_cons_of_mem _ member)
          simp [labelsText, text, later]

theorem Sample.text_clean {s : Sample} (fits : s.Fits) : '\n' ∉ s.text := by
  have name : '\n' ∉ s.name := fun member => (fits.name _ member).2.2 rfl
  have labels := labelsText_clean fits.labels
  unfold Sample.text
  split_ifs
  · simp [name, fits.value]
  · simp [name, labels, fits.value]

theorem lines_clean {f : Family} (fits : f.Fits) : ∀ line ∈ f.lines, '\n' ∉ line := by
  have word : ∀ w, '\n' ∉ w → ∀ text, '\n' ∉ text → '\n' ∉ w ++ f.name ++ ' ' :: text := by
    intro w plain text clean
    simp [plain, fits.name.2, clean]
  intro line member
  rw [Family.lines, List.mem_cons, List.mem_cons] at member
  obtain rfl | rfl | within := member
  · exact word helpWord (by decide) f.help fits.help
  · exact word typeWord (by decide) f.kind fits.kind
  · obtain ⟨s, there, rfl⟩ := List.mem_map.1 within
    exact Sample.text_clean (fits.samples s there)

/-- **What was put together is read back.** -/
theorem read_render {fs : List Family} (fit : ∀ f ∈ fs, f.Fits) (single : Single fs) :
    read (render fs) = some fs := by
  have text : render fs = (fs.flatMap Family.lines).flatMap (· ++ ['\n']) := by
    rw [render, List.flatMap_assoc]
  have lines : linesOf [] (render fs) = fs.flatMap Family.lines := by
    rw [text, linesOf_lines]
    intro line member
    obtain ⟨f, there, within⟩ := List.mem_flatMap.1 member
    exact lines_clean (fit f there) line within
  unfold read
  rw [lines, readLine_families fit]
  show (gather (fs.flatMap Family.read)).bind _ = _
  rw [gather_families fit]
  show (if Single fs then some fs else none) = some fs
  rw [if_pos single]

end Clumsy.Theory.Exposition

/-
# Profiles.File -- profile.cpp: profiles.json

`profilesWriteAll` prints names, keys and values as they are; `profilesLoad` reads names and
keys up to the next quote and counts braces.  Keys and values never hold a character that
matters to the reader (`reachable_sound`), so the file comes back exactly when no name is
empty or holds a quote (`profilesLoad_writeAll_iff`).

Streams are POSIX ones: the bytes of a text are the bytes of the file.
-/
import Clumsy.Profiles.Save
import Clumsy.Scenario.Walk

namespace Clumsy.Profiles

open Clumsy.Theory
open Clumsy.Modules
open Clumsy.Scenario (isBlank endsValue readValue readValue_run isBrace closeBrace
  closeBrace_plain cString)

set_option autoImplicit false

variable {β : Type}

def PARAM_KEY_SIZE : Nat := 48
def PROFILES_BUF_SIZE : Nat := 65536

/-! ## Writing -/

/-- One item after the other; an item is told whether it is the last one. -/
def inOrder {α : Type} (text : Bool → α → List Char) : List α → List Char
  | [] => []
  | [a] => text true a
  | a :: as => text false a ++ inOrder text as

/-- What stands behind an item. -/
def separator (last : Bool) : List Char := if last then ['\n'] else [',', '\n']

def pairText (last : Bool) (pair : ParamKV) : List Char :=
  "    \"".toList ++ (pair.1 ++ ("\": ".toList ++ (pair.2 ++ separator last)))

def profileText (last : Bool) (p : Profile) : List Char :=
  "  \"".toList ++ (p.name ++ ("\": \x7b\n".toList ++
    (inOrder pairText p.params ++ ("  \x7d".toList ++ separator last))))

def profilesWriteAll (profiles : List Profile) : List Char :=
  "\x7b\n".toList ++ (inOrder profileText profiles ++ "\x7d\n".toList)

/-! ## Reading -/

/-- The loop of `parseInnerObject`; `kv` is what was read so far.  Every round reads a
character. -/
def parseInnerObject : Nat → List Char → List ParamKV → List ParamKV
  | 0, _, kv => kv
  | fuel + 1, p, kv =>
      if kv.length ≥ MAX_PROFILE_PARAMS then kv
      else
        match p.dropWhile fun c => isBlank c || c == ',' with
        | [] => kv
        | '}' :: _ => kv
        | '"' :: p =>
            match p.dropWhile (· != '"') with
            | [] => kv
            | _ :: rest =>
                let key := p.takeWhile (· != '"')
                -- a key that does not fit is skipped, but not its value
                if key = [] ∨ key.length ≥ PARAM_KEY_SIZE then parseInnerObject fuel rest kv
                else
                  match rest.dropWhile fun c => isBlank c || c == ':' with
                  | [] => kv
                  | p => parseInnerObject fuel (readValue p).2 (kv ++ [(key, (readValue p).1)])
        | _ :: p => parseInnerObject fuel p kv

theorem parseInnerObject_length :
    ∀ (fuel : Nat) (p : List Char) (kv : List ParamKV), kv.length ≤ MAX_PROFILE_PARAMS →
      (parseInnerObject fuel p kv).length ≤ MAX_PROFILE_PARAMS
  | 0, _, _, few => few
  | fuel + 1, p, kv, few => by
      have ih := parseInnerObject_length fuel
      rw [parseInnerObject]
      split
      · exact few
      · split
        · exact few
        · exact few
        · split
          · exact few
          · dsimp only
            split
            · exact ih _ _ few
            · split
              · exact few
              · apply ih
                rw [List.length_append, List.length_singleton]
                omega
        · exact ih _ _ few

/-- The loop of `profilesLoad`; `profiles` is what was read so far. -/
def readProfiles : Nat → List Char → List Profile → List Profile
  | 0, _, profiles => profiles
  | fuel + 1, p, profiles =>
      if profiles.length ≥ MAX_PROFILES then profiles
      else
        match p.dropWhile fun c => isBlank c || c == ',' with
        | [] => profiles
        | '}' :: _ => profiles
        | '"' :: p =>
            match p.dropWhile (· != '"') with
            | [] => profiles
            | _ :: rest =>
                let name := p.takeWhile (· != '"')
                if short : name ≠ [] ∧ name.length < PROFILE_NAME_SIZE then
                  match rest.dropWhile fun c => isBlank c || c == ':' with
                  | '\x7b' :: p =>
                      let content := (closeBrace 1 p).1.dropLast
                      let read :=
                        { name
                          params := parseInnerObject content.length content []
                          short := short.2
                          few := parseInnerObject_length _ _ _ (Nat.zero_le _) }
                      readProfiles fuel (closeBrace 1 p).2 (profiles ++ [read])
                  | p => readProfiles fuel p profiles
                else readProfiles fuel rest profiles
        | _ :: p => readProfiles fuel p profiles

/-- A missing file empties the array, and one without a brace leaves it alone. -/
def profilesLoad (file : Option (List Char)) (profiles : List Profile) : List Profile :=
  match file with
  | none => []
  | some text =>
      match (cString (text.take (PROFILES_BUF_SIZE - 1))).dropWhile (· != '\x7b') with
      | [] => profiles
      | _ :: p => readProfiles p.length p []

/-! ## Reachable arrays -/

def profileDelete (name : List Char) (profiles : List Profile) : Option (List Profile) :=
  (profiles.findIdx? fun p => p.name == name).map profiles.eraseIdx

/-- The arrays that saving and deleting make of an empty one.  `apiSaveProfile` takes any
name that is not empty and passes it on as a C string. -/
inductive Reachable (β : Type) : List Profile → Prop
  | empty : Reachable β []
  | saved {name : List Char} {s : Settings β} {profiles profiles' : List Profile} :
      Reachable β profiles → name ≠ [] →
      profileSaveCurrent (cString name) s profiles = some profiles' → Reachable β profiles'
  | deleted {name : List Char} {profiles profiles' : List Profile} :
      Reachable β profiles → profileDelete name profiles = some profiles' → Reachable β profiles'

/-! ## Plain texts -/

/-- The characters of keys and values. -/
def isPlain (c : Char) : Bool := c.isAlphanum || c == '-' || c == '.'

def PlainText (limit : Nat) (s : List Char) : Prop :=
  s ≠ [] ∧ s.length ≤ limit ∧ s.all isPlain = true

instance (limit : Nat) (s : List Char) : Decidable (PlainText limit s) :=
  inferInstanceAs (Decidable (s ≠ [] ∧ s.length ≤ limit ∧ s.all isPlain = true))

/-- No key has more than 19 characters and no value more than 7. -/
structure PlainPair (pair : ParamKV) : Prop where
  key   : PlainText 19 pair.1
  value : PlainText 7 pair.2

/-- A character that matters to the reader is not plain. -/
theorem ne_of_plain {c d : Char} (plain : isPlain c = true) (special : isPlain d = false) :
    c ≠ d := by
  rintro rfl
  rw [plain] at special
  cases special

theorem plain_digits {s : List Char} (digits : ∀ c ∈ s, c.isDigit = true) :
    s.all isPlain = true := by
  rw [List.all_eq_true]
  intro c member
  simp [isPlain, Char.isAlphanum, digits c member]

theorem plain_toDigits {n : Nat} (small : n < 10 ^ 7) : PlainText 7 (Nat.toDigits 10 n) :=
  ⟨(Text.whole_digits (Text.whole_toDigits n)).1,
    (Nat.length_toDigits_le_iff (by decide) (by decide)).2 small,
    plain_digits Text.toDigits_isDigit⟩

theorem plain_decimal {lo hi : Int} (c : Packet.Clamped lo hi) (low : 0 ≤ lo) (high : hi < 10 ^ 7) :
    PlainText 7 (Text.decimal c.val) := by
  have lower := c.lower
  have upper := c.upper
  rw [Text.decimal, if_neg (by omega)]
  exact plain_toDigits (by omega)

theorem plain_boolText (on : Bool) : PlainText 7 (boolText on) := by
  cases on <;> decide

theorem plain_distName (d : Dist) : PlainText 7 (jitterDistName d) := by
  cases d <;> decide

theorem plain_chanceText {F : Format} (wide : Wide F) (chance : Packet.Chance) :
    PlainText 7 (chanceText F chance) := by
  obtain ⟨n, small, written, -⟩ := chanceText_tenths wide chance
  have last : n % 10 < 10 := Nat.mod_lt n (by decide)
  have front : (Nat.toDigits 10 (n / 10)).length ≤ 3 :=
    (Nat.length_toDigits_le_iff (by decide) (by decide)).2 (by omega)
  rw [written, Text.tenths]
  refine ⟨by simp, by simp; omega, ?_⟩
  rw [List.all_append, plain_digits Text.toDigits_isDigit, Bool.true_and]
  simp [isPlain, Char.isAlphanum, last]

theorem plain_keys {m : ModuleId} {key : List Char} (known : key ∈ m.keys) : PlainText 19 key := by
  have all : modules.all (fun m => m.keys.all fun key => decide (PlainText 19 key)) = true := by
    decide +kernel
  have mine := List.all_eq_true.1 all m (mem_modules m)
  exact of_decide_eq_true (List.all_eq_true.1 mine key known)

theorem plain_values (m : ModuleId) (mods : Statics β) :
    ((m.getParams m.paramCount mods).map Prod.snd).Forall (PlainText 7) := by
  cases m <;>
    simp only [ModuleId.getParams, lagGetParams, jitterGetParams, dropGetParams, burstlossGetParams,
      blackoutGetParams, throttleGetParams, dupGetParams, oodGetParams, tamperGetParams,
      corruptGetParams, resetGetParams, bandwidthGetParams, ModuleId.paramCount, Nat.lt_irrefl,
      if_false, List.map]
  case lag =>
      exact ⟨plain_decimal _ (by decide) (by decide), plain_boolText _, plain_boolText _⟩
  case jitter =>
      exact ⟨plain_decimal _ (by decide) (by decide), plain_decimal _ (by decide) (by decide),
        plain_boolText _, plain_boolText _, plain_distName _⟩
  case drop =>
      exact ⟨plain_chanceText (.inl rfl) _, plain_boolText _, plain_boolText _⟩
  case burstloss =>
      exact ⟨plain_chanceText (.inl rfl) _, plain_chanceText (.inl rfl) _,
        plain_chanceText (.inl rfl) _, plain_chanceText (.inl rfl) _, plain_boolText _,
        plain_boolText _⟩
  case blackout =>
      exact ⟨plain_decimal _ (by decide) (by decide), plain_decimal _ (by decide) (by decide),
        plain_boolText _, plain_boolText _⟩
  case throttle =>
      exact ⟨plain_chanceText (.inl rfl) _, plain_decimal _ (by decide) (by decide),
        plain_boolText _, plain_boolText _, plain_boolText _⟩
  case dup =>
      exact ⟨plain_chanceText (.inl rfl) _, plain_decimal _ (by decide) (by decide),
        plain_boolText _, plain_boolText _⟩
  case ood =>
      exact ⟨plain_chanceText (.inl rfl) _, plain_decimal _ (by decide) (by decide),
        plain_decimal _ (by decide) (by decide), plain_boolText _, plain_boolText _⟩
  case tamper =>
      exact ⟨plain_chanceText (.inl rfl) _, plain_decimal _ (by decide) (by decide),
        plain_boolText _, plain_boolText _, plain_boolText _⟩
  case corrupt =>
      exact ⟨plain_chanceText (.inr rfl) _, plain_decimal _ (by decide) (by decide),
        plain_boolText _, plain_boolText _, plain_boolText _⟩
  case reset =>
      exact ⟨plain_chanceText (.inl rfl) _, plain_boolText _, plain_boolText _⟩
  case bandwidth =>
      exact ⟨plain_decimal _ (by decide) (by decide), plain_boolText _, plain_boolText _⟩

theorem plain_getParams (m : ModuleId) (mods : Statics β) :
    ∀ pair ∈ m.getParams m.paramCount mods, PlainPair pair := by
  intro pair member
  have values := List.forall_iff_forall_mem.1 (plain_values m mods)
  exact ⟨plain_keys (ModuleId.getParams_keys m mods pair member),
    values _ (List.mem_map_of_mem member)⟩

theorem plain_shortName (m : ModuleId) : PlainPair (m.shortName, "true".toList) := by
  cases m <;> exact ⟨by decide, by decide⟩

theorem plain_collect (s : Settings β) : ∀ pair ∈ collect s modules [], PlainPair pair := by
  obtain ⟨part, isPart, collected⟩ := collect_parts s modules_nodup []
  intro pair member
  rw [collected, List.nil_append, List.mem_flatMap] at member
  obtain ⟨m, -, inPart⟩ := member
  have written := isPart m
  generalize part m = pairs at written inPart
  cases written with
  | whole =>
      rcases List.mem_cons.1 inPart with rfl | param
      · exact plain_shortName m
      · exact plain_getParams m s.mods pair param
  | bare =>
      rw [List.mem_singleton.1 inPart]
      exact plain_shortName m
  | none => cases inPart

/-! ## Sound arrays -/

/-- A profile as saving makes it. -/
structure Profile.Sound (p : Profile) : Prop where
  name   : '\x00' ∉ p.name
  params : ∀ pair ∈ p.params, PlainPair pair

def Sound (profiles : List Profile) : Prop :=
  profiles.length ≤ MAX_PROFILES ∧ ∀ p ∈ profiles, p.Sound

theorem snapshot_sound (name : List Char) (s : Settings β) : (snapshot (cString name) s).Sound where
  name := by
    intro member
    have inside := List.mem_takeWhile_imp (List.mem_of_mem_take member)
    exact absurd inside (by decide)
  params := plain_collect s

theorem profileSaveCurrent_sound {name : List Char} {s : Settings β}
    {profiles profiles' : List Profile} (sound : Sound profiles)
    (done : profileSaveCurrent (cString name) s profiles = some profiles') : Sound profiles' := by
  obtain ⟨room, all⟩ := sound
  rw [profileSaveCurrent] at done
  split at done
  · cases done
    refine ⟨by rw [List.length_set]; exact room, fun p member => ?_⟩
    rcases List.mem_or_eq_of_mem_set member with old | new
    · exact all p old
    · rw [new]
      exact snapshot_sound name s
  · split at done
    · cases done
    · cases done
      refine ⟨by rw [List.length_append, List.length_singleton]; omega, fun p member => ?_⟩
      rcases List.mem_append.1 member with old | new
      · exact all p old
      · rw [List.mem_singleton.1 new]
        exact snapshot_sound name s

theorem profileDelete_sound {name : List Char} {profiles profiles' : List Profile}
    (sound : Sound profiles) (done : profileDelete name profiles = some profiles') :
    Sound profiles' := by
  obtain ⟨i, -, rfl⟩ := Option.map_eq_some_iff.1 done
  exact ⟨(List.length_eraseIdx_le _ _).trans sound.1,
    fun p member => sound.2 p (List.mem_of_mem_eraseIdx member)⟩

theorem reachable_sound {profiles : List Profile} (reachable : Reachable β profiles) :
    Sound profiles := by
  induction reachable with
  | empty => exact ⟨Nat.zero_le _, by simp⟩
  | saved _ _ done ih => exact profileSaveCurrent_sound ih done
  | deleted _ done ih => exact profileDelete_sound ih done

/-! ## Reading what was written -/

theorem plain_of_mem {limit : Nat} {s : List Char} (plain : PlainText limit s) {c : Char}
    (member : c ∈ s) : isPlain c = true := List.all_eq_true.1 plain.2.2 c member

/-- Neither white space nor a separator is plain. -/
theorem endsValue_plain {c : Char} (plain : isPlain c = true) : endsValue c = false := by
  have special : [',', '}', ' ', '\t', '\r', '\n'].all (fun d => !isPlain d) = true := by decide
  by_contra ends
  rw [Bool.not_eq_false] at ends
  have listed : c ∈ [',', '}', ' ', '\t', '\r', '\n'] := by
    simpa [endsValue, isBlank, or_assoc] using ends
  have other := List.all_eq_true.1 special c listed
  rw [plain] at other
  cases other

theorem isBlank_plain {c : Char} (plain : isPlain c = true) : isBlank c = false := by
  have ends := endsValue_plain plain
  rw [endsValue, Bool.or_eq_false_iff] at ends
  exact ends.2

theorem readValue_plain {value rest : List Char} (plain : PlainText 7 value)
    (stops : ∀ c ∈ rest.head?, endsValue c = true) : readValue (value ++ rest) = (value, rest) := by
  have inside : ∀ c ∈ value, (!endsValue c) = true := fun c member => by
    rw [endsValue_plain (plain_of_mem plain member)]
    rfl
  have run : Stops (!endsValue ·) rest := fun c first => by simp [stops c first]
  have short : value.length ≤ Scenario.VAL_SIZE - 1 := plain.2.1.trans (by decide)
  have bare : value.head? ≠ some '"' := by
    intro quote
    exact ne_of_plain (plain_of_mem plain (List.mem_of_mem_head? quote)) (by decide) rfl
  rw [readValue_run plain.1 bare inside run, List.take_of_length_le short]

theorem parseInnerObject_pair {pair : ParamKV} (plain : PlainPair pair) {skipped : List Char}
    (skips : ∀ c ∈ skipped, (isBlank c || c == ',') = true) (last : Bool) (rest : List Char)
    (fuel : Nat) {kv : List ParamKV} (room : kv.length < MAX_PROFILE_PARAMS) :
    parseInnerObject (fuel + 1) (skipped ++ pairText last pair ++ rest) kv =
      parseInnerObject fuel (separator last ++ rest) (kv ++ [pair]) := by
  obtain ⟨key, value⟩ := pair
  have plainKey : PlainText 19 key := plain.key
  have plainValue : PlainText 7 value := plain.value
  set behind := separator last ++ rest with hBehind
  have ends : ∀ c ∈ behind.head?, endsValue c = true := by
    rw [hBehind]
    cases last <;> simp [separator, endsValue, isBlank]
  have indented : ∀ c ∈ skipped ++ "    ".toList, (isBlank c || c == ',') = true :=
    List.forall_mem_append.2 ⟨skips, by simp [isBlank]⟩
  have text : skipped ++ pairText last (key, value) ++ rest =
      skipped ++ "    ".toList ++ '"' :: (key ++ '"' :: ':' :: ' ' :: (value ++ behind)) := by
    simp [pairText, hBehind]
  have front := dropWhile_run (s := '"' :: (key ++ '"' :: ':' :: ' ' :: (value ++ behind)))
    indented (by simp [isBlank])
  have inKey : ∀ c ∈ key, (c != '"') = true := by
    intro c member
    have noQuote : c ≠ '"' := ne_of_plain (plain_of_mem plainKey member) (by decide)
    simpa using noQuote
  have quote : Stops (· != '"') ('"' :: ':' :: ' ' :: (value ++ behind)) := by simp
  have first : ∃ c t, value ++ behind = c :: t ∧ isPlain c = true := by
    obtain ⟨c, t, split⟩ := List.exists_cons_of_ne_nil plainValue.1
    exact ⟨c, t ++ behind, by rw [split, List.cons_append],
      plain_of_mem plainValue (split ▸ List.mem_cons_self)⟩
  obtain ⟨c, t, split, plainFirst⟩ := first
  have colon : (':' :: ' ' :: (value ++ behind)).dropWhile (fun c => isBlank c || c == ':') =
      value ++ behind := by
    have noColon : c ≠ ':' := ne_of_plain plainFirst (by decide)
    have stops : Stops (fun c => isBlank c || c == ':') (value ++ behind) := by
      rw [split, stops_cons, isBlank_plain plainFirst, Bool.false_or]
      exact beq_eq_false_iff_ne.2 noColon
    exact dropWhile_run (w := [':', ' ']) (by simp [isBlank]) stops
  have shortKey : ¬(key = [] ∨ key.length ≥ PARAM_KEY_SIZE) :=
    not_or.2 ⟨plainKey.1, Nat.not_le.2 (Nat.lt_of_le_of_lt plainKey.2.1 (by decide))⟩
  rw [text, parseInnerObject, if_neg (by omega), front]
  simp only [takeWhile_run inKey quote, dropWhile_run inKey quote, colon, if_neg shortKey]
  have read := readValue_plain plainValue ends
  rw [split] at read ⊢
  simp only [read]

/-! ## Items in order -/

section

variable {α : Type} {text : Bool → α → List Char}

theorem inOrder_cons (a : α) (as : List α) :
    inOrder text (a :: as) = text as.isEmpty a ++ inOrder text as := by
  cases as with
  | nil => exact (List.append_nil _).symm
  | cons b as => rfl

theorem mem_inOrder {c : Char} {as : List α} (member : c ∈ inOrder text as) :
    ∃ a ∈ as, ∃ last, c ∈ text last a := by
  induction as with
  | nil => cases member
  | cons a as ih =>
      rw [inOrder_cons, List.mem_append] at member
      rcases member with here | later
      · exact ⟨a, List.mem_cons_self, _, here⟩
      · obtain ⟨b, inRest, last, inText⟩ := ih later
        exact ⟨b, List.mem_cons_of_mem _ inRest, last, inText⟩

theorem length_inOrder_le {bound : Nat} {as : List α}
    (short : ∀ a ∈ as, ∀ last, (text last a).length ≤ bound) :
    (inOrder text as).length ≤ bound * as.length := by
  induction as with
  | nil => exact Nat.zero_le _
  | cons a as ih =>
      have here := short a List.mem_cons_self as.isEmpty
      have rest := ih fun b member => short b (List.mem_cons_of_mem _ member)
      rw [inOrder_cons, List.length_append, List.length_cons, Nat.mul_succ]
      omega

theorem le_length_inOrder (some : ∀ last a, text last a ≠ []) (as : List α) :
    as.length ≤ (inOrder text as).length := by
  induction as with
  | nil => exact Nat.le_refl _
  | cons a as ih =>
      have here := List.length_pos_iff.2 (some as.isEmpty a)
      rw [inOrder_cons, List.length_append, List.length_cons]
      omega

end

theorem separator_skips (last : Bool) : ∀ c ∈ separator last, (isBlank c || c == ',') = true := by
  cases last <;> simp [separator, isBlank]

/-- What was written is read up to a tail that is skipped. -/
theorem parseInnerObject_inOrder {pairs : List ParamKV} (plain : ∀ pair ∈ pairs, PlainPair pair)
    {skipped tail : List Char} (skips : ∀ c ∈ skipped, (isBlank c || c == ',') = true)
    (skipsTail : ∀ c ∈ tail, (isBlank c || c == ',') = true) {fuel : Nat} {kv : List ParamKV}
    (enough : pairs.length ≤ fuel) (room : kv.length + pairs.length ≤ MAX_PROFILE_PARAMS) :
    parseInnerObject fuel (skipped ++ inOrder pairText pairs ++ tail) kv = kv ++ pairs := by
  induction pairs generalizing skipped fuel kv with
  | nil =>
      have all : ∀ c ∈ skipped ++ inOrder pairText [] ++ tail, (isBlank c || c == ',') = true :=
        List.forall_mem_append.2 ⟨by simpa [inOrder] using skips, skipsTail⟩
      rw [List.append_nil]
      cases fuel with
      | zero => rfl
      | succ fuel =>
          rw [parseInnerObject, List.dropWhile_eq_nil_iff.2 all]
          split <;> rfl
  | cons pair pairs ih =>
      have some : fuel ≠ 0 := by
        simp at enough
        omega
      obtain ⟨fuel, rfl⟩ : ∃ k, fuel = k + 1 := Nat.exists_eq_succ_of_ne_zero some
      rw [List.length_cons] at enough room
      have text : skipped ++ inOrder pairText (pair :: pairs) ++ tail =
          skipped ++ pairText pairs.isEmpty pair ++ (inOrder pairText pairs ++ tail) := by
        rw [inOrder_cons]
        simp only [List.append_assoc]
      have rest : parseInnerObject fuel (separator pairs.isEmpty ++ inOrder pairText pairs ++ tail)
          (kv ++ [pair]) = kv ++ [pair] ++ pairs := by
        apply ih
        · exact fun other member => plain other (List.mem_cons_of_mem _ member)
        · exact separator_skips pairs.isEmpty
        · omega
        · rw [List.length_append, List.length_singleton]
          omega
      rw [text, parseInnerObject_pair (plain pair List.mem_cons_self) skips _ _ _ (by omega),
        ← List.append_assoc, rest, List.append_assoc]
      rfl

/-- Braces, and the end of the text. -/
def isReserved (c : Char) : Bool := c == '{' || c == '}' || c == '\x00'

theorem isReserved_plain {c : Char} (plain : isPlain c = true) : isReserved c = false := by
  have noOpen : c ≠ '{' := ne_of_plain plain (by decide)
  have noClose : c ≠ '}' := ne_of_plain plain (by decide)
  have noEnd : c ≠ '\x00' := ne_of_plain plain (by decide)
  simp [isReserved, noOpen, noClose, noEnd]

theorem isReserved_pairText {pair : ParamKV} (plain : PlainPair pair) (last : Bool) :
    ∀ c ∈ pairText last pair, isReserved c = false := by
  have key : ∀ c ∈ pair.1, isReserved c = false :=
    fun c member => isReserved_plain (plain_of_mem plain.key member)
  have value : ∀ c ∈ pair.2, isReserved c = false :=
    fun c member => isReserved_plain (plain_of_mem plain.value member)
  have behind : ∀ c ∈ separator last, isReserved c = false := by
    cases last <;> simp [separator, isReserved]
  rw [pairText]
  refine List.forall_mem_append.2 ⟨by simp [isReserved], ?_⟩
  refine List.forall_mem_append.2 ⟨key, ?_⟩
  refine List.forall_mem_append.2 ⟨by simp [isReserved], ?_⟩
  exact List.forall_mem_append.2 ⟨value, behind⟩

theorem isReserved_pairs {pairs : List ParamKV} (plain : ∀ pair ∈ pairs, PlainPair pair) :
    ∀ c ∈ inOrder pairText pairs, isReserved c = false := by
  intro c member
  obtain ⟨pair, listed, last, inText⟩ := mem_inOrder member
  exact isReserved_pairText (plain pair listed) last c inText

theorem Profile.ext {p q : Profile} (name : p.name = q.name) (params : p.params = q.params) :
    p = q := by
  cases p
  cases q
  cases name
  cases params
  rfl

/-- A name that the reader does not take for something else. -/
def Readable (name : List Char) : Prop := name ≠ [] ∧ '"' ∉ name

theorem readProfiles_profile {p : Profile} (sound : p.Sound) (readable : Readable p.name)
    {skipped : List Char} (skips : ∀ c ∈ skipped, (isBlank c || c == ',') = true) (last : Bool)
    (rest : List Char) (fuel : Nat) {profiles : List Profile}
    (room : profiles.length < MAX_PROFILES) :
    readProfiles (fuel + 1) (skipped ++ profileText last p ++ rest) profiles =
      readProfiles fuel (separator last ++ rest) (profiles ++ [p]) := by
  have content : ∃ content, content = '\n' :: inOrder pairText p.params ++ "  ".toList := ⟨_, rfl⟩
  obtain ⟨content, hContent⟩ := content
  have noBrace : ∀ c ∈ content, isBrace c = false := by
    have plain : ∀ c ∈ content, isReserved c = false := by
      rw [hContent, List.cons_append]
      refine List.forall_mem_cons.2 ⟨by decide, List.forall_mem_append.2 ⟨?_, ?_⟩⟩
      · exact isReserved_pairs sound.params
      · simp [isReserved]
    intro c member
    have other := plain c member
    rw [isReserved, Bool.or_eq_false_iff] at other
    exact other.1
  have params : parseInnerObject content.length content [] = p.params := by
    have enough : p.params.length ≤ content.length := by
      have some : ∀ last pair, pairText last pair ≠ [] := fun _ _ => List.cons_ne_nil _ _
      have long := le_length_inOrder some p.params
      rw [hContent, List.length_append, List.length_cons]
      omega
    have read : parseInnerObject content.length
        (['\n'] ++ inOrder pairText p.params ++ "  ".toList) [] = [] ++ p.params := by
      apply parseInnerObject_inOrder sound.params
      · simp [isBlank]
      · simp [isBlank]
      · exact enough
      · rw [List.length_nil, Nat.zero_add]
        exact p.few
    rw [List.nil_append, List.singleton_append, ← hContent] at read
    exact read
  have text : skipped ++ profileText last p ++ rest = skipped ++ "  ".toList ++
      '"' :: (p.name ++
        '"' :: ':' :: ' ' :: '{' :: (content ++ '}' :: (separator last ++ rest))) := by
    rw [profileText, hContent]
    simp
  have indented : ∀ c ∈ skipped ++ "  ".toList, (isBlank c || c == ',') = true :=
    List.forall_mem_append.2 ⟨skips, by simp [isBlank]⟩
  have inName : ∀ c ∈ p.name, (c != '"') = true := by
    rintro c member
    rw [bne_iff_ne]
    rintro rfl
    exact readable.2 member
  have front := dropWhile_run (s := '"' :: (p.name ++ '"' :: ':' :: ' ' :: '{' ::
    (content ++ '}' :: (separator last ++ rest)))) indented (by simp [isBlank])
  have quote : Stops (· != '"') ('"' :: ':' :: ' ' :: '{' ::
    (content ++ '}' :: (separator last ++ rest))) := by simp
  have colon : (':' :: ' ' :: '{' :: (content ++ '}' :: (separator last ++ rest))).dropWhile
      (fun c => isBlank c || c == ':') = '{' :: (content ++ '}' :: (separator last ++ rest)) :=
    dropWhile_run (w := [':', ' ']) (by simp [isBlank]) (by simp [isBlank])
  have fits : p.name ≠ [] ∧ p.name.length < PROFILE_NAME_SIZE := ⟨readable.1, p.short⟩
  rw [text, readProfiles, if_neg (by omega), front]
  simp only [takeWhile_run inName quote, dropWhile_run inName quote, colon, dif_pos fits,
    closeBrace_plain noBrace]
  congr 2
  rw [List.cons.injEq, and_iff_left rfl]
  apply Profile.ext
  · rfl
  · simp only [List.dropLast_concat]
    exact params

theorem readProfiles_inOrder {written : List Profile} (sound : ∀ p ∈ written, p.Sound)
    (readable : ∀ p ∈ written, Readable p.name) {skipped : List Char}
    (skips : ∀ c ∈ skipped, (isBlank c || c == ',') = true) {fuel : Nat} {profiles : List Profile}
    (enough : written.length ≤ fuel) (room : profiles.length + written.length ≤ MAX_PROFILES) :
    readProfiles fuel (skipped ++ inOrder profileText written ++ "\x7d\n".toList) profiles =
      profiles ++ written := by
  induction written generalizing skipped fuel profiles with
  | nil =>
      have front : (skipped ++ inOrder profileText [] ++ "\x7d\n".toList).dropWhile
          (fun c => isBlank c || c == ',') = "\x7d\n".toList := by
        rw [inOrder, List.append_nil]
        exact dropWhile_run skips (by simp [isBlank])
      rw [List.append_nil]
      cases fuel with
      | zero => rfl
      | succ fuel =>
          rw [readProfiles, front]
          split <;> rfl
  | cons p written ih =>
      obtain ⟨fuel, rfl⟩ : ∃ k, fuel = k + 1 :=
        Nat.exists_eq_succ_of_ne_zero (by rw [List.length_cons] at enough; omega)
      rw [List.length_cons] at enough room
      have text : skipped ++ inOrder profileText (p :: written) ++ "\x7d\n".toList =
          skipped ++ profileText written.isEmpty p ++
            (inOrder profileText written ++ "\x7d\n".toList) := by
        rw [inOrder_cons]
        simp only [List.append_assoc]
      have rest : readProfiles fuel (separator written.isEmpty ++ inOrder profileText written ++
          "\x7d\n".toList) (profiles ++ [p]) = profiles ++ [p] ++ written := by
        apply ih
        · exact fun q member => sound q (List.mem_cons_of_mem _ member)
        · exact fun q member => readable q (List.mem_cons_of_mem _ member)
        · exact separator_skips written.isEmpty
        · omega
        · rw [List.length_append, List.length_singleton]
          omega
      rw [text, readProfiles_profile (sound p List.mem_cons_self) (readable p List.mem_cons_self)
        skips _ _ _ (by omega), ← List.append_assoc, rest, List.append_assoc]
      rfl

/-! ## The file -/

theorem profileText_length {p : Profile} (sound : p.Sound) (last : Bool) :
    (profileText last p).length ≤ 1212 := by
  have pair : ∀ pair ∈ p.params, ∀ last, (pairText last pair).length ≤ 36 := by
    intro pair member last
    have key := (sound.params pair member).key.2.1
    have value := (sound.params pair member).value.2.1
    cases last <;> simp [pairText, separator] <;> omega
  have pairs := length_inOrder_le pair
  have name := p.short
  have few := p.few
  rw [PROFILE_NAME_SIZE] at name
  rw [MAX_PROFILE_PARAMS] at few
  cases last <;> simp [profileText, separator] <;> omega

/-- The file of a sound array fits the buffer that it is read into. -/
theorem profilesWriteAll_length {profiles : List Profile} (sound : Sound profiles) :
    (profilesWriteAll profiles).length ≤ PROFILES_BUF_SIZE - 1 := by
  have all := length_inOrder_le fun p member last => profileText_length (sound.2 p member) last
  have few := sound.1
  rw [MAX_PROFILES] at few
  simp [profilesWriteAll, PROFILES_BUF_SIZE]
  omega

/-- No byte of it ends a C string. -/
theorem cString_profilesWriteAll {profiles : List Profile} (sound : Sound profiles) :
    cString (profilesWriteAll profiles) = profilesWriteAll profiles := by
  have literal {s : List Char} (plain : s.contains '\x00' = false) : '\x00' ∉ s := by
    simpa using plain
  have pairs {p : Profile} (member : p ∈ profiles) : '\x00' ∉ inOrder pairText p.params :=
    fun inside => absurd (isReserved_pairs (sound.2 p member).params _ inside) (by decide)
  have texts : '\x00' ∉ inOrder profileText profiles := by
    intro inside
    obtain ⟨p, member, last, inText⟩ := mem_inOrder inside
    have behind : '\x00' ∉ separator last := by cases last <;> decide
    simp only [profileText, List.mem_append] at inText
    rcases inText with inText | inText | inText | inText | inText | inText
    · exact literal (by decide) inText
    · exact (sound.2 p member).name inText
    · exact literal (by decide) inText
    · exact pairs member inText
    · exact literal (by decide) inText
    · exact behind inText
  rw [cString, List.takeWhile_eq_self_iff]
  intro c member
  rw [bne_iff_ne]
  rintro rfl
  simp only [profilesWriteAll, List.mem_append] at member
  rcases member with member | member | member
  · exact literal (by decide) member
  · exact texts member
  · exact literal (by decide) member

theorem readProfiles_readable : ∀ (fuel : Nat) (p : List Char) (profiles : List Profile),
    (∀ q ∈ profiles, Readable q.name) → ∀ q ∈ readProfiles fuel p profiles, Readable q.name
  | 0, _, _, readable => readable
  | fuel + 1, p, profiles, readable => by
      have ih := readProfiles_readable fuel
      rw [readProfiles]
      split
      · exact readable
      · split
        · exact readable
        · exact readable
        · split
          · exact readable
          · dsimp only
            split
            · rename_i p _ _ _ _ short
              split
              · apply ih
                refine List.forall_mem_append.2 ⟨readable, ?_⟩
                intro q member
                rw [List.mem_singleton.1 member]
                refine ⟨short.1, fun quote => ?_⟩
                simpa using List.mem_takeWhile_imp quote
              · exact ih _ _ readable
            · exact ih _ _ readable
        · exact ih _ _ readable

/-- **A file that was written is read back exactly when no name is empty or holds a quote.** -/
theorem profilesLoad_writeAll_iff {profiles : List Profile} (reachable : Reachable β profiles)
    (before : List Profile) :
    profilesLoad (some (profilesWriteAll profiles)) before = profiles ↔
      ∀ p ∈ profiles, p.name ≠ [] ∧ '"' ∉ p.name := by
  have sound := reachable_sound reachable
  have read : profilesLoad (some (profilesWriteAll profiles)) before =
      readProfiles ('\n' :: (inOrder profileText profiles ++ "\x7d\n".toList)).length
        ('\n' :: (inOrder profileText profiles ++ "\x7d\n".toList)) [] := by
    rw [profilesLoad, List.take_of_length_le (profilesWriteAll_length sound),
      cString_profilesWriteAll sound]
    rfl
  rw [read]
  constructor
  · intro same p member
    rw [← same] at member
    exact readProfiles_readable _ _ [] (by simp) p member
  · intro readable
    have some : ∀ last p, profileText last p ≠ [] := fun _ _ => List.cons_ne_nil _ _
    have long := le_length_inOrder some profiles
    have back : readProfiles ('\n' :: (inOrder profileText profiles ++ "\x7d\n".toList)).length
        (['\n'] ++ inOrder profileText profiles ++ "\x7d\n".toList) [] = [] ++ profiles := by
      apply readProfiles_inOrder sound.2 readable
      · simp [isBlank]
      · rw [List.length_cons, List.length_append]
        omega
      · rw [List.length_nil, Nat.zero_add]
        exact sound.1
    exact back

/-- The array after one profile was saved under this name, with lag enabled. -/
def one (name : List Char) : List Profile := [snapshot (cString name) (started (· == .lag))]

theorem one_reachable {name : List Char} (some : name ≠ []) : Reachable Unit (one name) :=
  .saved .empty some rfl

/-- Another profile is saved behind it, with other modules enabled. -/
def two : List Profile :=
  one "4g".toList ++ [snapshot "bad wifi".toList (started fun m => m == .drop || m == .jitter)]

theorem profilesLoad_writeAll_two : profilesLoad (some (profilesWriteAll two)) [] = two := by
  have reachable : Reachable Unit two := by
    have first : Reachable Unit (one "4g".toList) := one_reachable (by decide)
    exact .saved first (show "bad wifi".toList ≠ [] by decide) rfl
  refine (profilesLoad_writeAll_iff reachable []).2 fun p member => ?_
  rcases List.mem_pair.1 member with rfl | rfl
  · exact ⟨by decide, by decide⟩
  · exact ⟨by decide, by decide⟩

/-- The quote in `a"b` ends the name, and what follows is taken for other names. -/
theorem profilesLoad_writeAll_quote :
    Reachable Unit (one "a\"b".toList) ∧
      profilesLoad (some (profilesWriteAll (one "a\"b".toList))) [] ≠ one "a\"b".toList := by
  refine ⟨one_reachable (by decide), fun same => ?_⟩
  have names := congrArg (List.map Profile.name) same
  revert names
  decide +kernel

end Clumsy.Profiles

/-
# Control.Metrics -- controlapi.cpp: the counters as a scraper reads them

`apiMetricsText` is put together line by line.  What it puts together is a list of families: one
sample each for the plain counters, one for every module, and the histogram of the delays with a
running count under each bound.

Whatever the counters are, a scraper takes the text; and it finds under each bound how many of
the recorded delays are no longer than that (`metrics_scraped`).
-/
import Clumsy.Control.Dispatch
import Clumsy.Theory.Exposition
import Clumsy.Theory.Rounding

namespace Clumsy.Control

open Clumsy.Theory
open Clumsy.Theory.Exposition (Family Sample LabelFits Single belongs render series)
open Clumsy.Theory.Json (Number)
open Clumsy.Modules
open Clumsy.Stats (Histogram LATENCY_BUCKETS SUM_ROLLOVER Exact bucketOf bucketOf_lt bucketUpper
  bucketUpper_mono histogram inBucket_bucketOf inBucket_iff samples)
open Clumsy.Text

set_option autoImplicit false

variable {β : Type}

/-! ## Families -/

/-- What every name begins with. -/
def ownWord : List Char := "clumsy_".toList

def clumsy (name : String) : List Char := ownWord ++ name.toList

def single (name help kind : String) (value : List Char) : Family :=
  { name := clumsy name, help := help.toList, kind := kind.toList
    samples := [{ name := clumsy name, labels := [], value }] }

def perModule (name help kind : String) (value : ModuleId → List Char) : Family :=
  { name := clumsy name, help := help.toList, kind := kind.toList
    samples := modules.map fun m =>
      { name := clumsy name, labels := [("module".toList, m.shortName)], value := value m } }

def bucket (bound value : List Char) : Sample :=
  { name := clumsy "latency_ms_bucket", labels := [("le".toList, bound)], value }

/-- A histogram from its buckets, its sum and its count. -/
def latencyFamily (buckets : List Sample) (sum count : List Char) : Family :=
  { name := clumsy "latency_ms", help := "observed packet delay from lag and jitter".toList
    kind := "histogram".toList
    samples := buckets ++
      [{ name := clumsy "latency_ms_sum", labels := [], value := sum },
        { name := clumsy "latency_ms_count", labels := [], value := count }] }

def bound (upper : Int) : List Char := if upper ≠ 0 then numToStr upper else "+Inf".toList

def runningBuckets (h : Histogram) : Nat → Int → List Int → List Sample
  | _, _, [] => []
  | ix, before, upper :: uppers =>
      let cumulative := before + h.latencyBucketCount ix
      bucket (bound upper) (numToStr cumulative) :: runningBuckets h (ix + 1) cumulative uppers

/-- All but the histogram. -/
def counters (now : UInt32) (app : App β) : List Family :=
  [single "up" "always 1; the scrape succeeded" "gauge" ['1'],
    single "capturing" "1 while a capture is running" "gauge" (bit app.capturing),
    single "captured_packets_total" "packets taken off the wire" "counter"
      (numToStr app.statsCapturedTotal),
    single "sent_packets_total" "packets handed back to the stack" "counter"
      (numToStr app.statsSentTotal),
    single "capture_elapsed_seconds" "seconds since the capture started" "gauge"
      (dblToStr (binary64.round ((appCaptureElapsedMs now app).toNat / 1000))),
    single "lag_buffer_packets" "packets held by the lag module" "gauge"
      (numToStr app.settings.mods.lag.buf.bufSize),
    single "jitter_buffer_packets" "packets held by the jitter module" "gauge"
      (numToStr app.settings.mods.jitter.buf.bufSize),
    single "bandwidth_buffer_packets" "packets held by the bandwidth module" "gauge"
      (numToStr app.settings.mods.bandwidth.buf.bufSize),
    single "pcap_written_packets_total" "packets written to the pcap file" "counter"
      (numToStr app.pcapPackets),
    single "pcap_written_bytes_total" "bytes written to the pcap file" "counter"
      (numToStr app.pcapBytes),
    single "replay_active" "1 while a pcap replay is running" "gauge" (bit app.replayActive),
    single "replay_injected_packets_total" "packets re-injected from a pcap file" "counter"
      (numToStr app.replaySent),
    single "replay_failed_packets_total" "replay packets that could not be injected" "counter"
      (numToStr app.replayFailed),
    single "corrupt_flipped_bits_total" "bits the corrupt module flipped" "counter"
      (numToStr app.bitsFlipped),
    perModule "module_enabled" "1 while a module is switched on" "gauge" fun m =>
      bit (app.settings.enabled m),
    perModule "module_affected_packets_total" "packets a module acted on" "counter" fun m =>
      numToStr (app.affectedCount m)]

def metricFamilies (now : UInt32) (app : App β) : List Family :=
  counters now app ++
    [latencyFamily (runningBuckets app.latency 0 0 bucketUpper) (dblToStr (latencySum app.latency))
      (numToStr app.latency.latencyCount)]

/-! ## The text is that of the families -/

theorem help_word : "# HELP clumsy_".toList = Exposition.helpWord ++ ownWord := by decide
theorem type_word : "# TYPE clumsy_".toList = Exposition.typeWord ++ ownWord := by decide
theorem own_word : "clumsy_".toList = ownWord := rfl
theorem blank_word : " ".toList = [' '] := by decide
theorem feed_word : "\n".toList = ['\n'] := by decide

theorem metric_eq (name help kind : String) (value : List Char) :
    metric name help kind value = render [single name help kind value] := by
  unfold metric
  simp only [String.toList_append]
  rw [help_word, type_word, own_word, blank_word, feed_word]
  simp [render, single, Family.lines, Sample.text, clumsy]

theorem sample_eq (name label : String) (of value : List Char) :
    sample name label of value =
      ({ name := clumsy name, labels := [(label.toList, of)], value } : Sample).text ++ ['\n'] := by
  have opens : "\x7b".toList = ['{'] := by decide
  have quotes : "=\"".toList = ['=', '"'] := by decide
  have closes : "\"\x7d ".toList = ['"', '}', ' '] := by decide
  unfold sample
  simp only [String.toList_append]
  rw [own_word, opens, quotes, closes]
  simp [Sample.text, Exposition.labelsText, Exposition.labelText, clumsy]

theorem bucketLines_eq (h : Histogram) (ix : Nat) (before : Int) (uppers : List Int) :
    bucketLines h ix before uppers =
      (runningBuckets h ix before uppers).flatMap (·.text ++ ['\n']) := by
  induction uppers generalizing ix before with
  | nil => rfl
  | cons upper uppers ih =>
      rw [bucketLines, runningBuckets, List.flatMap_cons, sample_eq, ih]
      rfl

theorem family_eq (name help kind : String) (ss : List Sample) :
    render [{ name := clumsy name, help := help.toList, kind := kind.toList, samples := ss }] =
      ("# HELP clumsy_" ++ name ++ " " ++ help ++ "\n").toList ++
        (("# TYPE clumsy_" ++ name ++ " " ++ kind ++ "\n").toList ++
          ss.flatMap (·.text ++ ['\n'])) := by
  simp only [String.toList_append]
  rw [help_word, type_word, blank_word, feed_word]
  simp [render, Family.lines, clumsy, List.flatMap_map]

theorem perModule_eq (name help kind : String) (value : ModuleId → List Char) :
    render [perModule name help kind value] =
      ("# HELP clumsy_" ++ name ++ " " ++ help ++ "\n").toList ++
        (("# TYPE clumsy_" ++ name ++ " " ++ kind ++ "\n").toList ++
          modules.flatMap fun m => sample name "module" m.shortName (value m)) := by
  rw [perModule, family_eq, List.flatMap_map]
  simp only [sample_eq]

theorem latencyFamily_eq (buckets : List Sample) (sum count : List Char) :
    render [latencyFamily buckets sum count] =
      "# HELP clumsy_latency_ms observed packet delay from lag and jitter\n".toList ++
        ("# TYPE clumsy_latency_ms histogram\n".toList ++
          (buckets.flatMap (·.text ++ ['\n']) ++
            ("clumsy_latency_ms_sum ".toList ++ (sum ++ (['\n'] ++
              ("clumsy_latency_ms_count ".toList ++ (count ++ ['\n']))))))) := by
  have help : "# HELP clumsy_latency_ms observed packet delay from lag and jitter\n" =
      "# HELP clumsy_" ++ "latency_ms" ++ " " ++ "observed packet delay from lag and jitter" ++
        "\n" := by simp
  have type : "# TYPE clumsy_latency_ms histogram\n" =
      "# TYPE clumsy_" ++ "latency_ms" ++ " " ++ "histogram" ++ "\n" := by simp
  have sumWord : "clumsy_latency_ms_sum ".toList = clumsy "latency_ms_sum" ++ [' '] := by
    decide
  have countWord : "clumsy_latency_ms_count ".toList = clumsy "latency_ms_count" ++ [' '] := by
    decide
  rw [latencyFamily, family_eq, help, type, sumWord, countWord]
  simp [Sample.text]

/-- A text that is put together from several is that of each in turn. -/
theorem render_flat (fs : List Family) : render fs = fs.flatMap fun f => render [f] := by
  simp [render]

theorem apiMetricsText_eq (now : UInt32) (app : App β) :
    apiMetricsText now app = render (metricFamilies now app) := by
  have enabled : "# HELP clumsy_module_enabled 1 while a module is switched on\n" =
      "# HELP clumsy_" ++ "module_enabled" ++ " " ++ "1 while a module is switched on" ++
        "\n" := by simp
  have enabled' : "# TYPE clumsy_module_enabled gauge\n" =
      "# TYPE clumsy_" ++ "module_enabled" ++ " " ++ "gauge" ++ "\n" := by simp
  have affected : "# HELP clumsy_module_affected_packets_total packets a module acted on\n" =
      "# HELP clumsy_" ++ "module_affected_packets_total" ++ " " ++ "packets a module acted on" ++
        "\n" := by simp
  have affected' : "# TYPE clumsy_module_affected_packets_total counter\n" =
      "# TYPE clumsy_" ++ "module_affected_packets_total" ++ " " ++ "counter" ++ "\n" := by simp
  rw [render_flat, metricFamilies, counters, List.flatMap_append]
  simp only [List.flatMap_cons, List.flatMap_nil, List.append_nil]
  simp only [← metric_eq, perModule_eq, latencyFamily_eq, ← bucketLines_eq]
  unfold apiMetricsText
  simp only [enabled, enabled', affected, affected', List.append_assoc]

/-! ## A scraper takes it -/

/-- Words of a family that stand in its lines as they are. -/
def plainWords (name help kind : String) : Bool :=
  ((clumsy name).all fun c => !Exposition.endsName c && c != '#' && c != '\n') &&
    help.toList.all (· != '\n') && kind.toList.all (· != '\n')

/-- Words by their characters; as texts they are slow to decode. -/
theorem plainWords_spelt {name help kind : String} {n h k : List Char} (named : name = String.ofList n)
    (helped : help = String.ofList h) (kinded : kind = String.ofList k)
    (plain : ((n.all fun c => !Exposition.endsName c && c != '#' && c != '\n') &&
      h.all (· != '\n') && k.all (· != '\n')) = true) : plainWords name help kind = true := by
  have own : (ownWord.all fun c => !Exposition.endsName c && c != '#' && c != '\n') = true := by
    decide
  rw [plainWords, clumsy, List.all_append, own, Bool.true_and, named, helped, kinded,
    String.toList_ofList, String.toList_ofList, String.toList_ofList]
  exact plain

theorem clean_of_all {s : List Char} (all : s.all (· != '\n') = true) : '\n' ∉ s := by
  intro member
  exact absurd (List.all_eq_true.1 all _ member) (by decide)

theorem clean_number {s : List Char} (number : Number s) : '\n' ∉ s := by
  intro member
  exact absurd (Json.number_isNumeral number _ member) (by decide)

theorem clean_numToStr (v : Int) : '\n' ∉ numToStr v := clean_number (number_decimal v)

theorem clean_dblToStr (v : Fp) : '\n' ∉ dblToStr v := by
  cases v with
  | finite q => exact clean_number (number_numberText 4 q)
  | infinite negative => cases negative <;> decide
  | nan => decide

theorem clean_bit (b : Bool) : '\n' ∉ bit b := by cases b <;> decide

theorem clean_blank {s : List Char} (plain : ∀ c ∈ s, Exposition.endsName c = false) : ' ' ∉ s := by
  intro member
  exact absurd (plain _ member) (by decide)

section Fits

variable {name help kind : String} (plain : plainWords name help kind = true)
include plain

theorem name_fits : ∀ c ∈ clumsy name, Exposition.endsName c = false ∧ c ≠ '#' ∧ c ≠ '\n' := by
  simp only [plainWords, Bool.and_eq_true] at plain
  intro c member
  have here := List.all_eq_true.1 plain.1.1 c member
  simpa [and_assoc] using here

theorem family_fits {ss : List Sample} (fit : ∀ s ∈ ss, s.Fits)
    (belong : ∀ s ∈ ss, belongs (clumsy name) kind.toList s.name = true) :
    Family.Fits
      { name := clumsy name, help := help.toList, kind := kind.toList, samples := ss } := by
  have named := name_fits plain
  simp only [plainWords, Bool.and_eq_true] at plain
  exact
    { name    := ⟨clean_blank fun c member => (named c member).1,
        fun member => (named _ member).2.2 rfl⟩
      help    := clean_of_all plain.1.2
      kind    := clean_of_all plain.2
      samples := fit
      belong  := belong }

theorem single_fits {value : List Char} (clean : '\n' ∉ value) :
    (single name help kind value).Fits := by
  refine family_fits plain ?_ (by simp [belongs])
  intro s member
  obtain rfl := List.mem_singleton.1 member
  exact { name := name_fits plain, labels := by simp, value := clean }

theorem perModule_fits {value : ModuleId → List Char} (clean : ∀ m, '\n' ∉ value m) :
    (perModule name help kind value).Fits := by
  refine family_fits plain ?_ (by simp [belongs])
  intro s member
  obtain ⟨m, _, rfl⟩ := List.mem_map.1 member
  refine { name := name_fits plain, labels := ?_, value := clean m }
  intro label told
  obtain rfl := List.mem_singleton.1 told
  have key : '=' ∉ "module".toList ∧ '\n' ∉ "module".toList := by decide
  exact { key, value := by cases m <;> decide }

end Fits

theorem bound_clean (upper : Int) : '"' ∉ bound upper ∧ '\n' ∉ bound upper := by
  unfold bound
  split_ifs
  · refine ⟨?_, clean_numToStr upper⟩
    intro member
    exact absurd (Json.number_isNumeral (number_decimal upper) _ member) (by decide)
  · decide

theorem bucket_fits (upper : Int) {value : List Char} (clean : '\n' ∉ value) :
    (bucket (bound upper) value).Fits := by
  have plain : plainWords "latency_ms_bucket" "" "" = true :=
    plainWords_spelt rfl rfl rfl (by decide)
  refine { name := name_fits plain, labels := ?_, value := clean }
  intro label told
  obtain rfl := List.mem_singleton.1 told
  have key : '=' ∉ "le".toList ∧ '\n' ∉ "le".toList := by decide
  exact { key, value := bound_clean upper }

theorem runningBuckets_fit (h : Histogram) (ix : Nat) (before : Int) (uppers : List Int) :
    ∀ s ∈ runningBuckets h ix before uppers, s.Fits ∧ s.name = clumsy "latency_ms_bucket" := by
  induction uppers generalizing ix before with
  | nil => exact fun s member => absurd member List.not_mem_nil
  | cons upper uppers ih =>
      intro s member
      rcases List.mem_cons.1 member with rfl | later
      · exact ⟨bucket_fits upper (clean_numToStr _), rfl⟩
      · exact ih _ _ s later

theorem latencyFamily_fits (h : Histogram) (sum : Fp) (count : Int) :
    (latencyFamily (runningBuckets h 0 0 bucketUpper) (dblToStr sum) (numToStr count)).Fits := by
  have buckets := runningBuckets_fit h 0 0 bucketUpper
  have sumPlain : plainWords "latency_ms_sum" "" "" = true :=
    plainWords_spelt rfl rfl rfl (by decide)
  have countPlain : plainWords "latency_ms_count" "" "" = true :=
    plainWords_spelt rfl rfl rfl (by decide)
  have belong : ∀ name ∈ ["latency_ms_bucket", "latency_ms_sum", "latency_ms_count"],
      belongs (clumsy "latency_ms") "histogram".toList (clumsy name) = true := by decide
  refine family_fits (plainWords_spelt rfl rfl rfl (by decide)) ?_ ?_
  · intro s member
    rcases List.mem_append.1 member with within | last
    · exact (buckets s within).1
    · rcases List.mem_cons.1 last with rfl | last
      · exact { name := name_fits sumPlain, labels := by simp, value := clean_dblToStr sum }
      · obtain rfl := List.mem_singleton.1 last
        exact { name := name_fits countPlain, labels := by simp, value := clean_numToStr count }
  · intro s member
    rcases List.mem_append.1 member with within | last
    · rw [(buckets s within).2]
      exact belong _ (by simp)
    · rcases List.mem_cons.1 last with rfl | last
      · exact belong "latency_ms_sum" (by simp)
      · obtain rfl := List.mem_singleton.1 last
        exact belong "latency_ms_count" (by simp)

theorem counters_fit (now : UInt32) (app : App β) : ∀ f ∈ counters now app, f.Fits := by
  simp only [counters, List.forall_mem_cons]
  refine ⟨single_fits ?_ (by decide), single_fits ?_ (clean_bit _), single_fits ?_ (clean_numToStr _),
    single_fits ?_ (clean_numToStr _), single_fits ?_ (clean_dblToStr _),
    single_fits ?_ (clean_numToStr _), single_fits ?_ (clean_numToStr _),
    single_fits ?_ (clean_numToStr _), single_fits ?_ (clean_numToStr _),
    single_fits ?_ (clean_numToStr _), single_fits ?_ (clean_bit _),
    single_fits ?_ (clean_numToStr _), single_fits ?_ (clean_numToStr _),
    single_fits ?_ (clean_numToStr _), perModule_fits ?_ fun m => clean_bit _,
    perModule_fits ?_ fun m => clean_numToStr _, fun f member => absurd member List.not_mem_nil⟩
  all_goals exact plainWords_spelt rfl rfl rfl (by decide)

theorem metricFamilies_fit (now : UInt32) (app : App β) :
    ∀ f ∈ metricFamilies now app, f.Fits := by
  intro f member
  rcases List.mem_append.1 member with counter | last
  · exact counters_fit now app f counter
  · obtain rfl := List.mem_singleton.1 last
    exact latencyFamily_fits _ _ _

/-- The names of the families, and the series in them. -/
def familyNames : List (List Char) :=
  ["up", "capturing", "captured_packets_total", "sent_packets_total", "capture_elapsed_seconds",
    "lag_buffer_packets", "jitter_buffer_packets", "bandwidth_buffer_packets",
    "pcap_written_packets_total", "pcap_written_bytes_total", "replay_active",
    "replay_injected_packets_total", "replay_failed_packets_total", "corrupt_flipped_bits_total",
    "module_enabled", "module_affected_packets_total", "latency_ms"].map clumsy

def seriesNames : List (List Char × List (List Char × List Char)) :=
  (familyNames.take 14).map (fun name => (name, [])) ++
    modules.map (fun m => (clumsy "module_enabled", [("module".toList, m.shortName)])) ++
    modules.map (fun m => (clumsy "module_affected_packets_total",
      [("module".toList, m.shortName)])) ++
    bucketUpper.map (fun upper => (clumsy "latency_ms_bucket", [("le".toList, bound upper)])) ++
    [(clumsy "latency_ms_sum", []), (clumsy "latency_ms_count", [])]

theorem runningBuckets_series (h : Histogram) (ix : Nat) (before : Int) (uppers : List Int) :
    (runningBuckets h ix before uppers).map (fun s => (s.name, s.labels)) =
      uppers.map fun upper => (clumsy "latency_ms_bucket", [("le".toList, bound upper)]) := by
  induction uppers generalizing ix before with
  | nil => rfl
  | cons upper uppers ih =>
      rw [runningBuckets, List.map_cons, List.map_cons, ih]
      rfl

theorem metricFamilies_single (now : UInt32) (app : App β) : Single (metricFamilies now app) := by
  have names : (metricFamilies now app).map Family.name = familyNames := rfl
  have listed : series (metricFamilies now app) = seriesNames := by
    have last : series [latencyFamily (runningBuckets app.latency 0 0 bucketUpper)
        (dblToStr (latencySum app.latency)) (numToStr app.latency.latencyCount)] =
        bucketUpper.map (fun upper => (clumsy "latency_ms_bucket", [("le".toList, bound upper)])) ++
          [(clumsy "latency_ms_sum", []), (clumsy "latency_ms_count", [])] := by
      rw [← runningBuckets_series app.latency 0 0 bucketUpper]
      simp [series, latencyFamily]
    have first : series (counters now app) = (familyNames.take 14).map (fun name => (name, [])) ++
        modules.map (fun m => (clumsy "module_enabled", [("module".toList, m.shortName)])) ++
        modules.map (fun m => (clumsy "module_affected_packets_total",
          [("module".toList, m.shortName)])) := rfl
    have both : series (metricFamilies now app) = series (counters now app) ++ series
        [latencyFamily (runningBuckets app.latency 0 0 bucketUpper)
          (dblToStr (latencySum app.latency)) (numToStr app.latency.latencyCount)] :=
      List.flatMap_append
    rw [both, first, last, seriesNames, List.append_assoc]
    simp only [List.append_assoc]
  constructor
  · rw [names]
    decide
  · rw [listed]
    decide

/-- **A scraper takes the text**, whatever the counters are. -/
theorem read_apiMetricsText (now : UInt32) (app : App β) :
    Exposition.read (apiMetricsText now app) = some (metricFamilies now app) := by
  rw [apiMetricsText_eq,
    Exposition.read_render (metricFamilies_fit now app) (metricFamilies_single now app)]

/-! ## What stands in the histogram -/

/-- How many delays are no longer than a bound; the last bucket has none. -/
def under (s : List Int) (upper : Int) : Nat :=
  if upper ≠ 0 then s.countP fun ms => ms ≤ upper else s.length

theorem bucketOf_le_iff {ix : Nat} (inside : ix < LATENCY_BUCKETS - 1) (ms : Int) :
    bucketOf ms ≤ ix ↔ ms ≤ bucketUpper.getD ix 0 := by
  have here := inBucket_bucketOf ms
  have last := bucketOf_lt ms
  constructor
  · intro low
    have small : ms ≤ bucketUpper.getD (bucketOf ms) 0 := here.2.resolve_left (by omega)
    exact small.trans (bucketUpper_mono ix inside _ low)
  · intro small
    by_contra high
    have large : bucketUpper.getD (bucketOf ms - 1) 0 < ms := here.1.resolve_left (by omega)
    have mono := bucketUpper_mono (bucketOf ms - 1) (by omega) ix (by omega)
    omega

/-- The buckets up to one, together. -/
theorem under_eq (s : List Int) {ix : Nat} (inside : ix < LATENCY_BUCKETS) :
    under s (bucketUpper.getD ix 0) = s.countP fun ms => bucketOf ms ≤ ix := by
  have some_ : ∀ ix < LATENCY_BUCKETS - 1, bucketUpper.getD ix 0 ≠ 0 := by decide
  by_cases last : ix < LATENCY_BUCKETS - 1
  · rw [under, if_pos (some_ ix last)]
    exact List.countP_congr fun ms _ => by
      rw [decide_eq_true_iff, decide_eq_true_iff, bucketOf_le_iff last]
  · obtain rfl : ix = LATENCY_BUCKETS - 1 := by omega
    rw [under, if_neg (by decide)]
    refine (List.countP_eq_length.2 fun ms _ => ?_).symm
    have below := bucketOf_lt ms
    exact decide_eq_true (by omega)

theorem countP_or {α : Type} {p q r : α → Bool} (split : ∀ a, r a = (p a || q a))
    (apart : ∀ a, (p a && q a) = false) (s : List α) : s.countP r = s.countP p + s.countP q := by
  induction s with
  | nil => rfl
  | cons a s ih =>
      have once := apart a
      rw [List.countP_cons, List.countP_cons, List.countP_cons, ih, split a]
      cases first : p a <;> cases second : q a <;> simp [first, second] at once ⊢ <;> omega

theorem runningBuckets_exact {s : List Int} {h : Histogram} (exact : Exact s h) {ix : Nat}
    {uppers : List Int} (here : bucketUpper.drop ix = uppers) :
    runningBuckets h ix (s.countP fun ms => bucketOf ms < ix : Nat) uppers =
      uppers.map fun upper => bucket (bound upper) (numToStr (under s upper)) := by
  induction uppers generalizing ix with
  | nil => rfl
  | cons upper uppers ih =>
      have inside : ix < LATENCY_BUCKETS := by
        by_contra beyond
        rw [List.drop_eq_nil_of_le (not_lt.1 beyond)] at here
        cases here
      have upperIs : bucketUpper.getD ix 0 = upper := by
        rw [List.getD_eq_getElem?_getD, ← List.head?_drop, here]
        rfl
      have next : bucketUpper.drop (ix + 1) = uppers := by
        rw [← List.tail_drop, here]
        rfl
      have added : ((s.countP fun ms => bucketOf ms < ix : Nat) : Int) + h.latencyBucketCount ix =
          (s.countP fun ms => bucketOf ms < ix + 1 : Nat) := by
        rw [exact.buckets ix inside, ← Nat.cast_add, Nat.cast_inj]
        refine (countP_or (fun ms => ?_) (fun ms => ?_) s).symm
        · simp only [inBucket_iff inside]
          grind
        · simp only [inBucket_iff inside]
          grind
      have here' : under s upper = s.countP fun ms => bucketOf ms < ix + 1 := by
        rw [← upperIs, under_eq s inside]
        exact List.countP_congr fun ms _ => by simp
      rw [runningBuckets, List.map_cons, ← ih next, here', ← added]

/-- The sum as a whole number, while it has room in a double. -/
theorem dblToStr_sum {s : List Int} {h : Histogram} (exact : Exact s h) (nonneg : 0 ≤ h.sumHigh)
    (small : s.sum < 10 ^ 15) : dblToStr (latencySum h) = numToStr s.sum := by
  have low := exact.low
  have sum : h.sumHigh * SUM_ROLLOVER + h.sumLow = s.sum := exact.sum
  have whole {n : Int} (positive : 0 ≤ n) (less : n < 10 ^ 15) :
      binary64.round (n : ℚ) = .finite n := by
    have stays : binary64.nearest (n : ℚ) = n := by
      refine binary64.nearest_whole (by decide) ?_
      rw [abs_of_nonneg positive]
      exact less.trans (by decide)
    have finite : |binary64.nearest (n : ℚ)| < 2 ^ binary64.maxExp := by
      rw [stays, abs_of_nonneg (by exact_mod_cast positive)]
      have room : (2 : ℚ) ^ (50 : Int) ≤ 2 ^ binary64.maxExp :=
        zpow_le_zpow_right₀ (by norm_num) (by decide)
      have top : ((10 ^ 15 : Int) : ℚ) < 2 ^ (50 : Int) := by norm_num
      exact (lt_trans (by exact_mod_cast less) top).trans_le room
    rw [Format.round, if_pos finite, stays]
  have high : 0 ≤ h.sumHigh * SUM_ROLLOVER := mul_nonneg nonneg (by decide)
  have total : latencySum h = .finite (s.sum : ℚ) := by
    unfold latencySum Scenario.toDouble
    rw [whole high (by omega)]
    have together : ((h.sumHigh * SUM_ROLLOVER : Int) : ℚ) + h.sumLow = (s.sum : Int) := by
      rw [← sum]
      push_cast
      rfl
    rw [Format.lift, together, whole (by omega) small]
  have smallQ : ((s.sum : Int) : ℚ) < 10 ^ 15 := by exact_mod_cast small
  have positiveQ : (-10 ^ 15 : ℚ) < (s.sum : Int) := by
    have : (-10 ^ 15 : Int) < s.sum := by omega
    exact_mod_cast this
  rw [total, dblToStr, numberText, if_pos ⟨smallQ, positiveQ, by rw [Int.floor_intCast]⟩,
    Int.floor_intCast, numToStr]

/-- **What a scraper finds.**  After any resets and delays a scraper takes the text, and under
each bound of the histogram it finds how many of the delays since the last reset are no longer
than that, and under none and as the count how many there are; their sum is printed as it is
while it has fifteen places. -/
theorem metrics_scraped {w : Nat} (wide : 32 ≤ w) (now : UInt32) (app : App β)
    {events : List Stats.Event} (recorded : app.latency = (histogram w).run .initial events)
    (fits : (samples.run [] events).length < 2 ^ (w - 1)) :
    ∃ sum,
      Exposition.read (apiMetricsText now app) = some (counters now app ++
        [latencyFamily
          (bucketUpper.map fun upper =>
            bucket (bound upper) (numToStr (under (samples.run [] events) upper)))
          sum (numToStr (samples.run [] events).length)]) ∧
      ((samples.run [] events).sum < 10 ^ 15 → sum = numToStr (samples.run [] events).sum) := by
  have tracks : Stats.Tracks w (samples.run [] events) app.latency := by
    rw [recorded]
    exact samples.run_simulates (histogram w) (Stats.tracks_step wide) events
      (Stats.tracks_initial w)
  have exact := tracks.exact fits
  have buckets := runningBuckets_exact exact (show bucketUpper.drop 0 = bucketUpper from rfl)
  have none : ((samples.run [] events).countP fun ms => Stats.bucketOf ms < 0) = 0 := by
    simp
  refine ⟨dblToStr (latencySum app.latency), ?_,
    dblToStr_sum exact (exact.sumHigh tracks.range).1⟩
  rw [none] at buckets
  rw [read_apiMetricsText, metricFamilies, ← exact.count]
  exact congrArg (fun b => some (counters now app ++ [latencyFamily b _ _])) buckets

/-- The idle program behind two delays. -/
def delayedApp : App Unit :=
  { idleApp with latency := (histogram 32).run .initial [.record 7, .record 40] }

theorem metrics_scraped_delayed :
    ∃ sum,
      Exposition.read (apiMetricsText 0 delayedApp) = some (counters 0 delayedApp ++
        [latencyFamily
          (bucketUpper.map fun upper => bucket (bound upper)
            (numToStr (under (samples.run [] [.record 7, .record 40]) upper)))
          sum (numToStr (samples.run [] [.record 7, .record 40]).length)]) ∧
      ((samples.run [] [.record 7, .record 40]).sum < 10 ^ 15 →
        sum = numToStr (samples.run [] [.record 7, .record 40]).sum) := by
  have recorded : delayedApp.latency =
      (histogram 32).run .initial [.record 7, .record 40] := by
    unfold delayedApp
    with_reducible rfl
  exact metrics_scraped (le_refl 32) 0 delayedApp recorded (by decide)

end Clumsy.Control

/-
# Http.Percent -- httpserver.cpp: percent-encoding in a target

`urlDecode` undoes the percent-encoding of any text (`urlDecode_encodes`).  It decodes the path
before it is routed, so a name may hold what a route is made of and still be found between the
ends that `matchWrapped` takes off (`profile_addressed`).
-/
import Clumsy.Http.Delivery
import Clumsy.Text.Numeral

namespace Clumsy.Http

open Clumsy.Text
open Clumsy.Scenario (cString cString_of_free)

set_option autoImplicit false

/-! ## Encoding -/

/-- The bytes that may stand for themselves. -/
def isUnreserved (c : Char) : Bool := c.isAlphanum || c == '-' || c == '_' || c == '.'

/-- The percent-encodings of a text. -/
inductive Encodes : List Char → List Char → Prop
  | nil : Encodes [] []
  | plain {c : Char} {s t : List Char} : isUnreserved c = true → Encodes s t →
      Encodes (c :: s) (c :: t)
  | escape {c a b : Char} {s t : List Char} : isHexDigit a = true → isHexDigit b = true →
      16 * hexValue a + hexValue b = c.toNat → Encodes s t → Encodes (c :: s) ('%' :: a :: b :: t)

/-- No hex digit is one of the other characters. -/
theorem ne_of_hex {c d : Char} (hex : isHexDigit c = true) (other : isHexDigit d = false) :
    c ≠ d := by
  rintro rfl
  rw [hex] at other
  cases other

theorem ne_of_unreserved {c d : Char} (plain : isUnreserved c = true)
    (reserved : isUnreserved d = false) : c ≠ d := by
  rintro rfl
  rw [plain] at reserved
  cases reserved

theorem hexValue_lt {c : Char} (hex : isHexDigit c = true) : hexValue c < 16 := by
  rw [hexValue]
  split_ifs with digit
  · have bounds := digit_range digit
    have zero : '0'.toNat = 48 := rfl
    omega
  · rw [isHexDigit, Bool.or_eq_true, Bool.and_eq_true, decide_eq_true_eq, decide_eq_true_eq] at hex
    have last : c.toLower.toNat ≤ 'f'.toNat := (hex.resolve_left digit).2
    have f : 'f'.toNat = 102 := rfl
    have first : 'a'.toNat = 97 := rfl
    omega

/-- Two hex digits are a number. -/
theorem strtolHex_pair {a b : Char} (first : isHexDigit a = true) (second : isHexDigit b = true) :
    strtolHex (cString [a, b]) = (((16 * hexValue a + hexValue b : Nat) : Int), []) := by
  have free : '\x00' ∉ [a, b] := by
    simp [(ne_of_hex first (by decide : isHexDigit '\x00' = false)).symm,
      (ne_of_hex second (by decide : isHexDigit '\x00' = false)).symm]
  have space : isSpace a = false := by
    rw [← Bool.not_eq_true]
    intro blank
    simp only [isSpace, Bool.or_eq_true, beq_iff_eq, or_assoc] at blank
    rcases blank with rfl | rfl | rfl | rfl | rfl | rfl <;> exact absurd first (by decide)
  have signless : sign [a, b] = (false, [a, b]) := by
    rw [sign]
    · exact fun s same => ne_of_hex first (by decide) (List.cons.inj same).1
    · exact fun s same => ne_of_hex first (by decide) (List.cons.inj same).1
  have small := hexValue_lt first
  have small' := hexValue_lt second
  rw [cString_of_free free, strtolHex, List.dropWhile_cons_of_neg (by simp [space]), signless]
  simp [skipHexMark, first, second]
  omega

/-! ## Decoding -/

theorem urlDecode_other {c : Char} (other : c ≠ '%') (s : List Char) :
    urlDecode (c :: s) = (if c = '+' then ' ' else c) :: urlDecode s := by
  rw [urlDecode]
  intro a b t percent
  exact absurd percent other

/-- What needs no decoding in front. -/
theorem urlDecode_plain {s : List Char} (noPercent : '%' ∉ s) (noPlus : '+' ∉ s)
    (t : List Char) : urlDecode (s ++ t) = s ++ urlDecode t := by
  induction s with
  | nil => rfl
  | cons c s ih =>
      rw [List.mem_cons, not_or] at noPercent noPlus
      rw [List.cons_append, urlDecode_other (Ne.symm noPercent.1), if_neg (Ne.symm noPlus.1),
        ih noPercent.2 noPlus.2, List.cons_append]

theorem toByte_toNat {c : Char} (byte : c.toNat < 256) : toByte c.toNat = c := by
  rw [toByte]
  have same : ((c.toNat : Int) % 256).toNat = c.toNat := by
    omega
  rw [same, Char.ofNat_toNat]

/-- What was encoded in front comes back. -/
theorem urlDecode_encodes {s t : List Char} (encodes : Encodes s t) (u : List Char) :
    urlDecode (t ++ u) = s ++ urlDecode u := by
  induction encodes with
  | nil => rfl
  | plain unreserved _ ih =>
      rw [List.cons_append, urlDecode_other (ne_of_unreserved unreserved (by decide)),
        if_neg (ne_of_unreserved unreserved (by decide)), ih, List.cons_append]
  | escape first second value _ ih =>
      have small := hexValue_lt first
      have small' := hexValue_lt second
      simp only [List.cons_append, urlDecode, strtolHex_pair first second, value]
      rw [toByte_toNat (by omega), ih]

/-- No reserved character stands in an encoding. -/
theorem encodes_free {s t : List Char} (encodes : Encodes s t) {d : Char}
    (reserved : isUnreserved d = false) (noHex : isHexDigit d = false) (other : d ≠ '%') :
    d ∉ t := by
  induction encodes with
  | nil => exact List.not_mem_nil
  | plain unreserved _ ih =>
      rw [List.mem_cons, not_or]
      exact ⟨(ne_of_unreserved unreserved reserved).symm, ih⟩
  | escape first second _ _ ih =>
      simp only [List.mem_cons, not_or]
      exact ⟨other, (ne_of_hex first noHex).symm, (ne_of_hex second noHex).symm, ih⟩

/-! ## The request line -/

/-- The request line of a target without a query. -/
theorem requestLine_target {method target : List Char} (noSpace : ' ' ∉ method)
    (slash : target.head? = some '/') (noSpace' : ' ' ∉ target) (noQuery : '?' ∉ target)
    (version : List Char) :
    requestLine (method ++ ' ' :: (target ++ ' ' :: version)) =
      some { method, path := urlDecode target } := by
  simp [requestLine, cut_char noSpace, cut_char noSpace', slash, cut_char_none noQuery]

/-! ## Profiles -/

def profilesDir : List Char := "/api/profiles/".toList

def profileTarget (encoded action : List Char) : List Char := profilesDir ++ encoded ++ action

theorem matchWrapped_middle (before : List Char) {middle : List Char} (some_ : middle ≠ [])
    (behind : List Char) :
    matchWrapped (before ++ middle ++ behind) before behind = some middle := by
  have positive := List.length_pos_iff.2 some_
  rw [matchWrapped, if_neg (by simp only [List.length_append]; omega)]
  have front : (before ++ middle ++ behind).take before.length = before := by
    rw [List.append_assoc, List.take_left]
  have back : (before ++ middle ++ behind).drop
      ((before ++ middle ++ behind).length - behind.length) = behind := by
    rw [List.length_append, Nat.add_sub_cancel, List.drop_left]
  have inner : (before ++ middle ++ behind).length - before.length - behind.length =
      middle.length := by
    simp only [List.length_append]
    omega
  rw [front, back, inner, List.append_assoc, List.drop_left, List.take_left]
  simp

/-- No path with the other ending. -/
theorem matchWrapped_delete (before front : List Char) :
    matchWrapped (front ++ "/delete".toList) before "/apply".toList = none := by
  have back : (front ++ "/delete".toList).drop
      ((front ++ "/delete".toList).length - "/apply".toList.length) = "delete".toList := by
    have split : front ++ "/delete".toList = front ++ ['/'] ++ "delete".toList := by
      rw [List.append_assoc]
      rfl
    have length : (front ++ ['/'] ++ "delete".toList).length - "/apply".toList.length =
        (front ++ ['/']).length := by
      rw [List.length_append]
      rfl
    rw [split, length, List.drop_left]
  rw [matchWrapped, back]
  split_ifs <;> first | rfl | contradiction

/-- A path below the profiles is none of the others. -/
theorem ne_of_profilesDir {path : List Char} (below : profilesDir <+: path) {other : String}
    (notBelow : profilesDir.isPrefixOf other.toList = false) : path ≠ other.toList := by
  rintro rfl
  rw [List.isPrefixOf_iff_prefix.2 below] at notBelow
  cases notBelow

theorem route_profile {path : List Char} (below : profilesDir <+: path) (body : List Char) :
    route (postRoutes body) path = none := by
  have others : ∀ t ∈ (postRoutes body).map Prod.fst, profilesDir.isPrefixOf t.toList = false := by
    have texts : (postRoutes body).map Prod.fst = (postRoutes []).map Prod.fst := rfl
    rw [texts]
    decide +kernel
  rw [route, Option.map_eq_none_iff, List.find?_eq_none]
  intro r member same
  exact ne_of_profilesDir below (others r.1 (List.mem_map_of_mem member)) (beq_iff_eq.1 same).symm

theorem routeRequest_post {srv : Server} {req : HttpRequest} (below : profilesDir <+: req.path)
    (post : req.method = "POST".toList) (authorised : isAuthorized srv req = true) :
    routeRequest srv req = postRequest req.path req.body := by
  rw [routeRequest, if_neg (ne_of_profilesDir below (by decide)),
    if_neg (ne_of_profilesDir below (by decide)), authorised, if_neg (by decide), post,
    if_neg (by decide), if_pos rfl]

theorem postRequest_apply {name : List Char} (some_ : name ≠ []) (body : List Char) :
    postRequest (profilesDir ++ name ++ "/apply".toList) body = .call (.applyProfile name) := by
  have below : profilesDir <+: profilesDir ++ name ++ "/apply".toList := by
    rw [List.append_assoc]
    exact List.prefix_append _ _
  rw [postRequest, route_profile below]
  dsimp only
  rw [show "/api/profiles/".toList = profilesDir from rfl, matchWrapped_middle profilesDir some_]

theorem postRequest_delete {name : List Char} (some_ : name ≠ []) (body : List Char) :
    postRequest (profilesDir ++ name ++ "/delete".toList) body = .call (.deleteProfile name) := by
  have below : profilesDir <+: profilesDir ++ name ++ "/delete".toList := by
    rw [List.append_assoc]
    exact List.prefix_append _ _
  rw [postRequest, route_profile below]
  dsimp only
  rw [matchWrapped_delete, show "/api/profiles/".toList = profilesDir from rfl,
    matchWrapped_middle profilesDir some_]

/-- The request line of a `POST` to a profile. -/
theorem requestLine_profile {name encoded action : List Char} (encodes : Encodes name encoded)
    (plain : action.all (fun c => isUnreserved c || c == '/') = true) (version : List Char) :
    requestLine ("POST".toList ++ ' ' :: (profileTarget encoded action ++ ' ' :: version)) =
      some { method := "POST".toList, path := profilesDir ++ name ++ action } := by
  have outside {d : Char} (reserved : isUnreserved d = false) (slash : d ≠ '/') :
      d ∉ action := by
    intro member
    have kept := List.all_eq_true.1 plain d member
    rw [reserved, Bool.false_or, beq_iff_eq] at kept
    exact slash kept
  have free {d : Char} (reserved : isUnreserved d = false) (noHex : isHexDigit d = false)
      (other : d ≠ '%') (slash : d ≠ '/') (here : d ∉ profilesDir) :
      d ∉ profileTarget encoded action := by
    rw [profileTarget, List.mem_append, List.mem_append, not_or, not_or]
    exact ⟨⟨here, encodes_free encodes reserved noHex other⟩, outside reserved slash⟩
  have decoded : urlDecode (profileTarget encoded action) = profilesDir ++ name ++ action := by
    have noPercent : '%' ∉ action := outside rfl (by decide)
    have noPlus : '+' ∉ action := outside rfl (by decide)
    have end_ := urlDecode_plain noPercent noPlus []
    rw [urlDecode, List.append_nil] at end_
    rw [profileTarget, List.append_assoc, urlDecode_plain (by decide) (by decide),
      urlDecode_encodes encodes, end_, List.append_assoc]
  rw [requestLine_target (by decide) rfl (free (by decide) (by decide) (by decide) (by decide)
    (by decide)) (free (by decide) (by decide) (by decide) (by decide) (by decide)), decoded]

/-- **Every profile has its paths.**  A `POST` of its encoded name between `/api/profiles/` and
`/apply` or `/delete` is routed to the one handler with that name. -/
theorem profile_addressed {name encoded : List Char} (some_ : name ≠ [])
    (encodes : Encodes name encoded) (version : List Char) :
    (∃ req, requestLine ("POST".toList ++ ' ' ::
        (profileTarget encoded "/apply".toList ++ ' ' :: version)) = some req ∧
      ∀ srv token body, isAuthorized srv { req with token, body } = true →
        routeRequest srv { req with token, body } = .call (.applyProfile name)) ∧
    ∃ req, requestLine ("POST".toList ++ ' ' ::
        (profileTarget encoded "/delete".toList ++ ' ' :: version)) = some req ∧
      ∀ srv token body, isAuthorized srv { req with token, body } = true →
        routeRequest srv { req with token, body } = .call (.deleteProfile name) := by
  have below (action : List Char) : profilesDir <+: profilesDir ++ name ++ action := by
    rw [List.append_assoc]
    exact List.prefix_append _ _
  constructor
  · refine ⟨_, requestLine_profile encodes rfl version, fun srv token body authorised => ?_⟩
    rw [routeRequest_post (below _) rfl authorised]
    exact postRequest_apply some_ body
  · refine ⟨_, requestLine_profile encodes rfl version, fun srv token body authorised => ?_⟩
    rw [routeRequest_post (below _) rfl authorised]
    exact postRequest_delete some_ body

def openServer : Server :=
  { os := .posix, webRoot := WEB_ROOT_DIR, authRequired := false, serverToken := [] }

/-- A name with a slash in it. -/
theorem profile_addressed_slash :
    ∃ req, requestLine "POST /api/profiles/a%2Fb/apply HTTP/1.1".toList = some req ∧
      routeRequest openServer { req with token := [], body := [] } =
        .call (.applyProfile ['a', '/', 'b']) := by
  have encodes : Encodes ['a', '/', 'b'] "a%2Fb".toList :=
    .plain rfl (.escape rfl rfl rfl (.plain rfl .nil))
  obtain ⟨⟨req, line, routed⟩, -⟩ :=
    profile_addressed (by decide) encodes "HTTP/1.1".toList
  exact ⟨req, line, routed openServer [] [] rfl⟩

end Clumsy.Http

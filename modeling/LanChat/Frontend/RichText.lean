import LanChat.Lib.Regex

/-!
# Rich text (`frontend/src/lib/richText.ts`)

A message is cut into plain runs, links, inline code and paths of files.  A text is a list of
UTF-16 code units, as the regular expressions of JavaScript see it without the flag `u`.

* `codePattern`, `urlPattern`, `pathPattern`: the three alternatives of the combined expression;
* `round`: what the loop of `tokenize` does with a match;
* `tokenizeWithin`: `tokenize`, as far as a number of rounds allows;
* `Cut`: what the loop keeps;
* `tokenize_lossless`: the loop ends, and nothing of the text is lost.

The flag `i` matters for the letters of `https` only: the classes of the expressions have letters
in both cases or none, and no other code unit has an ASCII letter as its upper case.
-/

namespace LanChat.RichText

open Regex

/-! ### Code units -/

/-- The code unit of a character of the first plane. -/
def unit (c : Char) : UInt16 := UInt16.ofNat c.toNat

/-- The code units of a text of the first plane. -/
def units (s : String) : List UInt16 := s.toList.map unit

/-- A code unit is one of these. -/
def oneOf (s : String) (u : UInt16) : Bool := u ∈ units s

/-- A code unit is none of these. -/
def noneOf (s : String) (u : UInt16) : Bool := !oneOf s u

/-- `[a-z]`, `[A-Z]` and `[0-9]`. -/
def isLower (u : UInt16) : Bool := unit 'a' ≤ u && u ≤ unit 'z'

def isUpper (u : UInt16) : Bool := unit 'A' ≤ u && u ≤ unit 'Z'

def isDigit (u : UInt16) : Bool := unit '0' ≤ u && u ≤ unit '9'

/-- `[A-Za-z]`. -/
def isLetter (u : UInt16) : Bool := isLower u || isUpper u

/-- `\w`. -/
def isWord (u : UInt16) : Bool := isLetter u || isDigit u || u == unit '_'

/-- `\s`. -/
def isSpace (u : UInt16) : Bool :=
  oneOf "\t\n\x0b\x0c\r \u00a0\u1680\u2028\u2029\u202f\u205f\u3000\ufeff" u ||
    (0x2000 ≤ u && u ≤ 0x200a)

/-- A code unit without its case. -/
def lower (u : UInt16) : UInt16 := if isUpper u then u + 32 else u

/-! ### Patterns -/

/-- A text of small letters and other characters, with the flag `i`. -/
def lit (s : String) : Regex UInt16 :=
  (units s).foldr (fun c r => .seq (.char fun u => lower u == c) r) .empty

/-- `\b`. -/
def boundary : Regex UInt16 := .assert fun left right => left.any isWord != right.any isWord

/-- `$`. -/
def atEnd : Regex UInt16 := .assert fun _ right => right.isNone

/-- A code unit that is no space and none of these. -/
def visible (s : String) : Regex UInt16 := .char fun u => !isSpace u && noneOf s u

/-- `codePattern`. -/
def codePattern : Regex UInt16 :=
  .seq (lit "`") (.seq (plus (.char (noneOf "`\n"))) (lit "`"))

/-- `urlPattern`. -/
def urlPattern : Regex UInt16 :=
  .seq boundary (.seq (lit "http") (.seq (opt (lit "s")) (.seq (lit "://")
    (.seq (plus (visible "<>\"\x27`")) (visible "<>\"\x27`.,;:!?，。；：！？）)]】」』")))))

/-- A drive. -/
def drivePattern : Regex UInt16 :=
  .seq boundary (.seq (.char isLetter) (.seq (lit ":\\")
    (plus (.seq (plus (visible "\\/:*?\"<>|，。；")) (opt (lit "\\"))))))

/-- A share. -/
def sharePattern : Regex UInt16 :=
  .seq (lit "\\\\") (.seq (plus (visible "\\")) (.seq (lit "\\") (plus (visible "，。；"))))

/-- An absolute or a relative path. -/
def unixPattern : Regex UInt16 :=
  let segment := plus (.char fun u => isWord u || oneOf ".-" u)
  .seq (opt (.alt (lit "~") (.seq (lit ".") (opt (lit "."))))) (.seq (lit "/")
    (.seq (.star (.seq segment (lit "/"))) (.seq segment
      (.seq (opt (.seq (lit ".") (plus (.char isWord))))
        (.look (.alt atEnd (.char fun u => isSpace u || oneOf "，。；,;:）)" u)))))))

/-- `pathPattern`. -/
def pathPattern : Regex UInt16 := .alt drivePattern (.alt sharePattern unixPattern)

/-- `combined`; the number of the alternative that matched says which group is set. -/
def combined : List (Regex UInt16) := [codePattern, urlPattern, pathPattern]

/-! ### `tokenize` -/

/-- `RichToken`. -/
inductive RichToken
  | text (text : List UInt16)
  | link (text href : List UInt16)
  | code (text code : List UInt16)
  | path (text : List UInt16)
  deriving DecidableEq, Repr

/-- `text` of a token. -/
def RichToken.content : RichToken → List UInt16
  | .text whole | .link whole _ | .code whole _ | .path whole => whole

/-- `slice`. -/
def slice (input : List UInt16) (i j : ℕ) : List UInt16 := (input.take j).drop i

/-- A drive in front of a path: `/^[A-Za-z]:\\/`. -/
def startsWithDrive : List UInt16 → Bool
  | letter :: rest => isLetter letter && (units ":\\").isPrefixOf rest
  | [] => false

/-- `isLikelyPath`. -/
def isLikelyPath (path : List UInt16) : Bool :=
  if startsWithDrive path || (units "\\\\").isPrefixOf path then 3 < path.length
  else if (units "~/").isPrefixOf path || (units "./").isPrefixOf path ||
      (units "../").isPrefixOf path then true
  else (units "/").isPrefixOf path &&
    2 ≤ ((path.splitOn (unit '/')).filter fun segment => !segment.isEmpty).length

/-- The variables of the loop. -/
structure Loop where
  tokens : List RichToken := []
  last : ℕ := 0
  lastIndex : ℕ := 0

/-- The token of a match; the code is what is between its two marks. -/
def tokenOf (input : List UInt16) (m : Found) : RichToken :=
  let whole := slice input m.index m.stop
  if m.group = 0 then .code whole (slice input (m.index + 1) (m.stop - 1))
  else if m.group = 1 then .link whole whole
  else .path whole

/-- The plain run up to a position, when there is one. -/
def plainRun (input : List UInt16) (i j : ℕ) : List RichToken :=
  if i < j then [.text (slice input i j)] else []

/-- The body of the loop; a path that is not likely one is passed over. -/
def round (input : List UInt16) (s : Loop) (m : Found) : Loop :=
  if m.group = 2 ∧ isLikelyPath (slice input m.index m.stop) = false then
    { s with lastIndex := m.stop }
  else
    { tokens := s.tokens ++ plainRun input s.last m.index ++ [tokenOf input m]
      last := m.stop
      lastIndex := m.stop }

/-- The loop, as far as a number of rounds allows. -/
def loop (input : List UInt16) : ℕ → Loop → Option Loop
  | 0, _ => none
  | rounds + 1, s =>
    match exec input combined s.lastIndex with
    | none => some s
    | some m => loop input rounds (round input s m)

/-- `tokenize`, as far as a number of rounds allows. -/
def tokenizeWithin (rounds : ℕ) (input : List UInt16) : Option (List RichToken) :=
  (loop input rounds {}).map fun s =>
    let tokens := s.tokens ++ plainRun input s.last input.length
    if tokens = [] then [.text input] else tokens

/-! ### Slices -/

variable {input : List UInt16} {i j k : ℕ}

theorem slice_append (hij : i ≤ j) (hjk : j ≤ k) :
    slice input i j ++ slice input j k = slice input i k := by
  unfold slice
  have htake : input.take j = (input.take k).take j := by
    rw [List.take_take, Nat.min_eq_left hjk]
  have hdrop : (input.take k).drop j = ((input.take k).drop i).drop (j - i) := by
    rw [List.drop_drop, Nat.add_sub_cancel' hij]
  rw [htake, List.drop_take, hdrop]
  exact List.take_append_drop _ _

theorem length_slice (hj : j ≤ input.length) : (slice input i j).length = j - i := by
  unfold slice
  rw [List.length_drop, List.length_take, Nat.min_eq_left hj]

theorem slice_zero : slice input 0 j = input.take j := List.drop_zero

theorem slice_self : slice input i i = [] :=
  List.drop_eq_nil_of_le (List.length_take_le i input)

theorem slice_ne_nil (hij : i < j) (hj : j ≤ input.length) : slice input i j ≠ [] := by
  rw [← List.length_pos_iff, length_slice hj]
  omega

theorem slice_succ {u : UInt16} (hget : input[i]? = some u) : slice input i (i + 1) = [u] := by
  obtain ⟨hlt, rfl⟩ := List.getElem?_eq_some_iff.1 hget
  unfold slice
  rw [List.take_succ_eq_append_getElem hlt, List.drop_append_of_le_length (by simp; omega)]
  simp

/-! ### What the patterns match -/

/-- A literal matches itself, the case of letters aside. -/
theorem map_lower_of_lit {s : String} (hmatch : Matches input (lit s) i j) :
    (slice input i j).map lower = units s := by
  unfold lit at hmatch
  generalize units s = us at hmatch ⊢
  induction us generalizing i with
  | nil =>
    obtain rfl : j = i := hmatch
    rw [slice_self]
    rfl
  | cons c rest ih =>
    obtain ⟨k, ⟨⟨u, hget, hsame⟩, rfl⟩, hrest⟩ := hmatch
    rw [← slice_append (Nat.le_succ i) hrest.le, slice_succ hget, List.map_append, ih hrest]
    exact congrArg (· :: rest) (eq_of_beq hsame)

/-- The scheme of a link, the case of letters aside. -/
def hasWebScheme (href : List UInt16) : Bool :=
  (units "http://").isPrefixOf (href.map lower) || (units "https://").isPrefixOf (href.map lower)

/-- A match of `urlPattern` starts with a scheme. -/
theorem hasWebScheme_of_url (hmatch : Matches input urlPattern i j) :
    hasWebScheme (slice input i j) = true := by
  obtain ⟨i, ⟨-, rfl⟩, a, hhttp, b, hs, c, hslashes, hrest⟩ := hmatch
  have hab := hs.le
  have hbc := hslashes.le
  have hlower : (slice input i j).map lower = units "http" ++ (slice input a b).map lower ++
      units "://" ++ (slice input c j).map lower := by
    rw [← map_lower_of_lit hhttp, ← map_lower_of_lit hslashes, ← List.map_append, ← List.map_append,
      ← List.map_append, slice_append hhttp.le hab, slice_append (hhttp.le.trans hab) hbc,
      slice_append ((hhttp.le.trans hab).trans hbc) hrest.le]
  unfold hasWebScheme
  rw [hlower, Bool.or_eq_true, List.isPrefixOf_iff_prefix, List.isPrefixOf_iff_prefix]
  rcases hs with hs | hs
  · right
    rw [map_lower_of_lit hs]
    exact List.prefix_append (units "http" ++ units "s" ++ units "://") _
  · left
    obtain rfl : b = a := hs
    rw [slice_self]
    exact List.prefix_append (units "http" ++ units "://") _

/-- No pattern matches the empty text. -/
theorem least_pos : ∀ r ∈ combined, 0 < r.least := by decide +kernel

/-! ### The loop -/

/-- What the loop keeps: the tokens are the text up to `last`. -/
structure Cut (input : List UInt16) (s : Loop) : Prop where
  joined : (s.tokens.map RichToken.content).flatten = input.take s.last
  last_le : s.last ≤ s.lastIndex
  lastIndex_le : s.lastIndex ≤ input.length
  nonempty : ∀ t ∈ s.tokens, t.content ≠ []
  links : ∀ text href, RichToken.link text href ∈ s.tokens →
    href = text ∧ hasWebScheme text = true

theorem cut_start (input : List UInt16) : Cut input {} where
  joined := rfl
  last_le := le_rfl
  lastIndex_le := Nat.zero_le _
  nonempty := nofun
  links := nofun

theorem Cut.start_le {s : Loop} (hs : Cut input s) {m : Found}
    (hm : m.Leftmost input combined s.lastIndex) :
    s.last ≤ m.index ∧ m.index < m.stop ∧ m.stop ≤ input.length := by
  obtain ⟨r, hr, hmatch⟩ := hm.found
  have hpos := least_pos r (List.mem_of_getElem? hr)
  have hleast := hmatch.least_le
  exact ⟨hs.last_le.trans hm.start_le, by omega, hmatch.le_length hm.index_le⟩

theorem content_tokenOf (m : Found) : (tokenOf input m).content = slice input m.index m.stop := by
  unfold tokenOf
  dsimp only
  split_ifs <;> rfl

theorem content_plainRun (hij : i ≤ j) :
    ((plainRun input i j).map RichToken.content).flatten = slice input i j := by
  unfold plainRun
  split_ifs with hlt
  · exact List.append_nil _
  · obtain rfl : i = j := by omega
    exact slice_self.symm

theorem mem_plainRun {t : RichToken} (ht : t ∈ plainRun input i j) :
    i < j ∧ t = .text (slice input i j) := by
  unfold plainRun at ht
  split_ifs at ht with hlt
  · exact ⟨hlt, List.mem_singleton.1 ht⟩
  · cases ht

/-- A link comes from `urlPattern`. -/
theorem link_of_tokenOf {m : Found} {text href : List UInt16} {start : ℕ}
    (hm : m.Leftmost input combined start) (hlink : tokenOf input m = .link text href) :
    href = text ∧ hasWebScheme text = true := by
  unfold tokenOf at hlink
  dsimp only at hlink
  split_ifs at hlink with hcode hurl
  obtain ⟨rfl, rfl⟩ := RichToken.link.inj hlink
  obtain ⟨r, hr, hmatch⟩ := hm.found
  rw [hurl] at hr
  obtain rfl : urlPattern = r := Option.some.inj hr
  exact ⟨rfl, hasWebScheme_of_url hmatch⟩

/-- A match moves the search on, and the loop keeps what it keeps. -/
theorem Cut.round {s : Loop} (hs : Cut input s) {m : Found}
    (hm : m.Leftmost input combined s.lastIndex) :
    Cut input (round input s m) ∧ s.lastIndex < (RichText.round input s m).lastIndex := by
  obtain ⟨hlast, hlt, hstop⟩ := hs.start_le hm
  have hstart := hm.start_le
  unfold RichText.round
  split_ifs with hskip
  · have hle : s.last ≤ m.stop := hlast.trans hlt.le
    exact ⟨{ hs with last_le := hle, lastIndex_le := hstop }, hstart.trans_lt hlt⟩
  refine ⟨⟨?_, le_rfl, hstop, ?_, ?_⟩, hstart.trans_lt hlt⟩
  · simp only [List.map_append, List.flatten_append, hs.joined, content_plainRun hlast,
      List.map_cons, List.map_nil, content_tokenOf, List.flatten_cons, List.flatten_nil,
      List.append_nil]
    rw [← slice_zero, ← slice_zero, slice_append (Nat.zero_le _) hlast,
      slice_append (Nat.zero_le _) hlt.le]
  · intro t ht
    rcases List.mem_append.1 ht with ht | ht
    · rcases List.mem_append.1 ht with ht | ht
      · exact hs.nonempty t ht
      · obtain ⟨hrun, rfl⟩ := mem_plainRun ht
        exact slice_ne_nil hrun (by omega)
    · obtain rfl := List.mem_singleton.1 ht
      rw [content_tokenOf]
      exact slice_ne_nil hlt hstop
  · intro text href ht
    rcases List.mem_append.1 ht with ht | ht
    · rcases List.mem_append.1 ht with ht | ht
      · exact hs.links text href ht
      · cases (mem_plainRun ht).2
    · exact link_of_tokenOf hm (List.mem_singleton.1 ht).symm

/-- The loop ends after at most as many rounds as there are code units left, and one more. -/
theorem loop_ends {s : Loop} (hs : Cut input s) :
    ∃ t, Cut input t ∧
      ∀ rounds, input.length - s.lastIndex < rounds → loop input rounds s = some t := by
  generalize hn : input.length - s.lastIndex = n
  induction n using Nat.strong_induction_on generalizing s with
  | _ n ih =>
    cases hexec : exec input combined s.lastIndex with
    | none =>
      refine ⟨s, hs, fun rounds hrounds => ?_⟩
      obtain ⟨rounds, rfl⟩ := Nat.exists_eq_add_of_lt hrounds
      rw [loop, hexec]
    | some m =>
      obtain ⟨hnext, hlt⟩ := hs.round (Found.spec hexec)
      have hle := hnext.lastIndex_le
      obtain ⟨t, ht, hloop⟩ := ih _ (by omega) hnext rfl
      refine ⟨t, ht, fun rounds hrounds => ?_⟩
      obtain ⟨more, rfl⟩ := Nat.exists_eq_add_of_lt hrounds
      rw [loop, hexec]
      exact hloop _ (by omega)

/-- The tokens of a text: the loop ends, nothing of the text is lost, no token is empty but for the
one of the empty text, and a link leads to a web page. -/
theorem tokenize_lossless (input : List UInt16) :
    ∃ tokens, (∀ rounds, input.length < rounds → tokenizeWithin rounds input = some tokens) ∧
      (tokens.map RichToken.content).flatten = input ∧
      (∀ t ∈ tokens, t.content = [] → input = []) ∧
      ∀ text href, RichToken.link text href ∈ tokens → href = text ∧ hasWebScheme text = true := by
  obtain ⟨s, hs, hloop⟩ := loop_ends (cut_start input)
  have hlast : s.last ≤ input.length := hs.last_le.trans hs.lastIndex_le
  have hjoined : ((s.tokens ++ plainRun input s.last input.length).map RichToken.content).flatten =
      input := by
    rw [List.map_append, List.flatten_append, hs.joined, content_plainRun hlast, ← slice_zero,
      slice_append (Nat.zero_le _) hlast, slice_zero, List.take_length]
  have hmem : ∀ t ∈ s.tokens ++ plainRun input s.last input.length, t.content ≠ [] ∧
      ∀ text href, t = .link text href → href = text ∧ hasWebScheme text = true := by
    intro t ht
    rcases List.mem_append.1 ht with ht | ht
    · exact ⟨hs.nonempty t ht, fun text href h => hs.links text href (h ▸ ht)⟩
    · obtain ⟨hrun, rfl⟩ := mem_plainRun ht
      exact ⟨slice_ne_nil hrun le_rfl, nofun⟩
  refine ⟨_, fun rounds hrounds => congrArg (Option.map _) (hloop rounds hrounds), ?_⟩
  dsimp only
  split_ifs with hnone
  · rw [hnone] at hjoined
    obtain rfl : [] = input := hjoined
    refine ⟨rfl, fun _ _ _ => rfl, fun text href ht => ?_⟩
    cases List.mem_singleton.1 ht
  · exact ⟨hjoined, fun t ht hempty => absurd hempty (hmem t ht).1,
      fun text href ht => (hmem _ ht).2 text href rfl⟩

/-- The link of a sentence ends before its full stop, and a fraction is no path. -/
example : tokenizeWithin 40 (units "3/4: https://a.io/b.") =
    some [.text (units "3/4: "), .link (units "https://a.io/b") (units "https://a.io/b"),
      .text (units ".")] := by
  decide +kernel

end LanChat.RichText

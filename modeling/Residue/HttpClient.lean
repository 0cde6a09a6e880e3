import Mathlib.Data.List.Basic

/-!
# Reading an HTTP response without curl

`HttpClient::fetchUrlContents` (`src/net/http-client.cc`), built without curl, sends a
`GET` and reads the reply into a `boost::asio::streambuf` (lines 100–155). A first
`read_until` reads until the buffer holds `\r\n`. An `std::istream` over the buffer then
reads the status line with `>> httpVersion`, `>> statusCode` and `getline`. It rejects the
reply unless the stream has not failed, the version starts with `HTTP/` and the status is
`200`. A second `read_until` reads until the unread part of the buffer holds `\r\n\r\n`. The
header lines are skipped up to the first line that is just `\r`, and what is left in the
buffer, then everything the socket delivers up to its end, is returned. Every exception
inside the `try` is caught, and the function then returns `""`.

The socket delivers the reply in chunks, one per read, and the stream sees only what the
buffer holds: `fetchUrlContents` takes the chunks. The stream extractions follow libstdc++
in the classic locale. `readResponse` is a reply delivered in one read.

For a reply whose status line is well formed, how it is cut into chunks does not matter
(`fetchUrlContents_any_chunking`): the first `\r\n` ends the status line, and the header loop
stops inside the buffer the second `read_until` leaves. `readResponse_renderResponse` gives
the outcome for every reply written as status line, header lines, blank line and body. A
reply with at least one header returns its body exactly when the version starts with `HTTP/`
and the status reads as `200` (`readResponse_round_trip`). A reply with no header line
returns `""` unless its body holds a blank line (`readResponse_without_headers`), because the
second `read_until` looks for `\r\n\r\n` after the status line.
-/

namespace Residue.HttpClient

/-- `std::isspace` in the classic locale: space, `\t`, `\n`, `\v`, `\f` and `\r`. -/
def isSpace (c : Char) : Bool :=
  c == ' ' || c == '\t' || c == '\n' || c == '\x0b' || c == '\x0c' || c == '\r'

/-- `"\r\n"`. -/
def crlf : List Char := ['\r', '\n']

/-- `"HTTP/"`, what `httpVersion.substr(0, 5)` is compared with. -/
def httpPrefix : List Char := ['H', 'T', 'T', 'P', '/']

/-- `2 ^ 32`: a 32-bit `unsigned int` holds the values below it. -/
def uintModulus : Nat := 4294967296

/-- `std::numeric_limits<unsigned int>::max()`. -/
def uintMax : Nat := uintModulus - 1

/-- The value of a run of decimal digits. -/
def decimalValue (digits : List Char) : Nat :=
  digits.foldl (fun n c => 10 * n + (c.toNat - '0'.toNat)) 0

/-- Whether `delim` occurs in `data`: what `boost::asio::read_until` looks for in the data
it has buffered. -/
def containsDelim (delim : List Char) : List Char → Bool
  | [] => delim.isEmpty
  | c :: data => delim.isPrefixOf (c :: data) || containsDelim delim data

/-! ## The stream -/

/-- `responseStream`: the input not yet read, and the stream's `failbit` and `eofbit`
(`badbit` is never set here). -/
structure IStream where
  rest : List Char
  fail : Bool
  eof : Bool
deriving DecidableEq, Repr

/-- `good()`: neither bit is set. -/
def IStream.good (s : IStream) : Bool := !s.fail && !s.eof

/-- `is >> str` for an `std::string`. The sentry skips whitespace, and `failbit | eofbit` if
it reaches the end. Then the characters up to the next whitespace are read. `str` is kept
when the sentry fails. -/
def extractString (s : IStream) (str : List Char) : IStream × List Char :=
  if !s.good then ({ s with fail := true }, str)
  else
    let input := s.rest.dropWhile isSpace
    if input.isEmpty then (⟨[], true, true⟩, str)
    else
      let rest := input.dropWhile (!isSpace ·)
      (⟨rest, false, rest.isEmpty⟩, input.takeWhile (!isSpace ·))

/-- The sign `num_get` takes before the digits: whether it is `-`, and the rest. -/
def readSign : List Char → Bool × List Char
  | [] => (false, [])
  | c :: rest =>
    if c = '-' then (true, rest) else if c = '+' then (false, rest) else (false, c :: rest)

/-- `is >> n` for an `unsigned int` (`num_get`, base 10). After the sentry come an optional
sign and the digits that follow. No digit sets `failbit` and stores `0`. A value above
`uintMax` sets `failbit` and stores `uintMax`. A `-` negates modulo `uintModulus`. `n` is
kept when the sentry fails. -/
def extractUnsigned (s : IStream) (n : Nat) : IStream × Nat :=
  if !s.good then ({ s with fail := true }, n)
  else
    let input := s.rest.dropWhile isSpace
    if input.isEmpty then (⟨[], true, true⟩, n)
    else
      let (negative, afterSign) := readSign input
      let digits := afterSign.takeWhile Char.isDigit
      let rest := afterSign.dropWhile Char.isDigit
      if digits.isEmpty then (⟨rest, true, rest.isEmpty⟩, 0)
      else if uintMax < decimalValue digits then (⟨rest, true, rest.isEmpty⟩, uintMax)
      else
        (⟨rest, false, rest.isEmpty⟩,
          if negative then (uintModulus - decimalValue digits) % uintModulus
          else decimalValue digits)

/-- `std::getline(is, str)`: the characters up to the next `\n`, which is taken and
dropped. Reaching the end sets `eofbit`, and taking nothing sets `failbit`. `str` is kept
when the sentry fails. -/
def getline (s : IStream) (str : List Char) : IStream × List Char :=
  if !s.good then ({ s with fail := true }, str)
  else if s.rest.isEmpty then (⟨[], true, true⟩, [])
  else
    let line := s.rest.takeWhile (· != '\n')
    match s.rest.dropWhile (· != '\n') with
    | [] => (⟨[], false, true⟩, line)
    | _ :: rest => (⟨rest, false, false⟩, line)

/-- A `getline` that does not fail takes at least one character. -/
theorem getline_rest_lt {s : IStream} {str : List Char} (h : (getline s str).1.fail = false) :
    (getline s str).1.rest.length < s.rest.length := by
  unfold getline at h ⊢
  cases hg : s.good <;> cases he : s.rest.isEmpty <;>
    simp only [hg, he, Bool.not_true, Bool.not_false, Bool.false_eq_true, if_true, if_false]
      at h ⊢
  any_goals cases h
  have hlen := congrArg List.length (List.takeWhile_append_dropWhile (· != '\n') s.rest)
  split
  · simpa [List.isEmpty_iff, List.length_pos] using he
  · rename_i rest heq
    rw [heq, List.length_append, List.length_cons] at hlen
    simp only
    omega

/-- The loop of line 129, `while (std::getline(responseStream, header) && header != "\r")`.
`header` is only compared after a `getline` that did not fail, which has replaced it, so
each turn starts from `[]`. A turn that goes on has taken a line, so the loop ends. -/
def skipHeaders (s : IStream) : IStream :=
  if _h : (getline s []).1.fail = false ∧ (getline s []).2 ≠ ['\r'] then
    skipHeaders (getline s []).1
  else (getline s []).1
termination_by s.rest.length
decreasing_by exact getline_rest_lt _h.1

/-- `boost::asio::read_until(socket, response, delim)`: while the unread data of the buffer
does not hold `delim`, the next chunk the socket delivers is appended to it. `none` is the
end of the stream before `delim`, where the call throws. -/
def readUntil (delim : List Char) : List Char → List (List Char) → Option (List Char × List (List Char))
  | buffer, [] => if containsDelim delim buffer then some (buffer, []) else none
  | buffer, chunk :: chunks =>
    if containsDelim delim buffer then some (buffer, chunk :: chunks)
    else readUntil delim (buffer ++ chunk) chunks

/-- Lines 107–113: `>> httpVersion`, `>> statusCode` and `getline(statusMessage)`.
`statusCode` is not initialised in the code; its value is only read when the extraction did
not fail. -/
def readStatusLine (s : IStream) : IStream × List Char × Nat :=
  let (s, httpVersion) := extractString s []
  let (s, statusCode) := extractUnsigned s 0
  ((getline s []).1, httpVersion, statusCode)

/-- Lines 100–155 of `HttpClient::fetchUrlContents` without curl, for a reply the socket
delivers in `chunks`: the body, or `""` where the code throws inside the `try`. The header
loop runs on what the buffer holds after the second `read_until`, with the stream's flags as
the status line left them; then the rest of the buffer and every later chunk are written
out. -/
def fetchUrlContents (chunks : List (List Char)) : List Char :=
  match readUntil crlf [] chunks with
  | none => []
  | some (response, chunks) =>
    let (s, httpVersion, statusCode) := readStatusLine ⟨response, false, false⟩
    if s.fail || httpVersion.take 5 != httpPrefix then []
    else if statusCode != 200 then []
    else
      match readUntil (crlf ++ crlf) s.rest chunks with
      | none => []
      | some (response, chunks) => (skipHeaders { s with rest := response }).rest ++ chunks.flatten

/-- A reply delivered in one read. -/
def readResponse (response : List Char) : List Char := fetchUrlContents [response]

/-- A reply as a server writes it: the status line, each header line, a blank line, then the
body. -/
def renderResponse (version code message : List Char) (headers : List (List Char))
    (body : List Char) : List Char :=
  version ++ ' ' :: (code ++ ' ' :: (message ++ crlf ++
    ((headers.map (· ++ crlf)).flatten ++ crlf ++ body)))

/-! ## Each extraction on the input it expects -/

theorem isSpace_of_isDigit {c : Char} (h : c.isDigit = true) : isSpace c = false := by
  cases hs : isSpace c
  · rfl
  · simp only [isSpace, Bool.or_eq_true, beq_iff_eq] at hs
    rcases hs with ((((rfl | rfl) | rfl) | rfl) | rfl) | rfl <;> exact absurd h (by decide)

theorem readSign_of_isDigit {c : Char} (rest : List Char) (h : c.isDigit = true) :
    readSign (c :: rest) = (false, c :: rest) := by
  have h₁ : c ≠ '-' := by rintro rfl; exact absurd h (by decide)
  have h₂ : c ≠ '+' := by rintro rfl; exact absurd h (by decide)
  simp [readSign, h₁, h₂]

/-- `>>` into a string reads a word up to the whitespace that ends it. -/
theorem extractString_word {w rest : List Char} {c : Char} (str : List Char) (hw : w ≠ [])
    (hws : ∀ x ∈ w, isSpace x = false) (hc : isSpace c = true) :
    extractString ⟨w ++ c :: rest, false, false⟩ str = (⟨c :: rest, false, false⟩, w) := by
  have hdrop : (w ++ c :: rest).dropWhile isSpace = w ++ c :: rest := by
    obtain ⟨w₀, w', rfl⟩ := List.exists_cons_of_ne_nil hw
    exact List.dropWhile_cons_of_neg (by simp [hws w₀ (List.mem_cons_self _ _)])
  have hall : ∀ x ∈ w, (!isSpace x) = true := fun x hx => by simp [hws x hx]
  have hword : (w ++ c :: rest).takeWhile (!isSpace ·) = w := by
    simp [List.takeWhile_append_of_pos hall, List.takeWhile_cons, hc]
  have hafter : (w ++ c :: rest).dropWhile (!isSpace ·) = c :: rest := by
    simp [List.dropWhile_append_of_pos hall, List.dropWhile_cons, hc]
  simp [extractString, IStream.good, hdrop, hword, hafter]

/-- `>>` into an `unsigned int` after a space reads a run of digits up to the next space,
and fails when its value does not fit. -/
theorem extractUnsigned_digits {code : List Char} (rest : List Char) (n : Nat) (hc : code ≠ [])
    (hd : ∀ x ∈ code, x.isDigit = true) :
    extractUnsigned ⟨' ' :: (code ++ ' ' :: rest), false, false⟩ n =
      (⟨' ' :: rest, decide (uintMax < decimalValue code), false⟩,
        min (decimalValue code) uintMax) := by
  have hstop : ¬ Char.isDigit ' ' = true := by decide
  have hdrop : (' ' :: (code ++ ' ' :: rest)).dropWhile isSpace = code ++ ' ' :: rest := by
    obtain ⟨c₀, code', rfl⟩ := List.exists_cons_of_ne_nil hc
    rw [List.dropWhile_cons_of_pos (by decide)]
    exact List.dropWhile_cons_of_neg
      (by simp [isSpace_of_isDigit (hd c₀ (List.mem_cons_self _ _))])
  have hsign : readSign (code ++ ' ' :: rest) = (false, code ++ ' ' :: rest) := by
    obtain ⟨c₀, code', rfl⟩ := List.exists_cons_of_ne_nil hc
    exact readSign_of_isDigit _ (hd c₀ (List.mem_cons_self _ _))
  have hdigits : (code ++ ' ' :: rest).takeWhile Char.isDigit = code := by
    rw [List.takeWhile_append_of_pos hd, List.takeWhile_cons_of_neg hstop, List.append_nil]
  have hafter : (code ++ ' ' :: rest).dropWhile Char.isDigit = ' ' :: rest := by
    rw [List.dropWhile_append_of_pos hd, List.dropWhile_cons_of_neg hstop]
  have hne : code.isEmpty = false := by simpa using hc
  by_cases hov : uintMax < decimalValue code
  · simp [extractUnsigned, IStream.good, hdrop, hsign, hdigits, hafter, hne, hov,
      Nat.min_eq_right (Nat.le_of_lt hov)]
  · simp [extractUnsigned, IStream.good, hdrop, hsign, hdigits, hafter, hne, hov,
      Nat.min_eq_left (Nat.le_of_not_lt hov)]

/-- `getline` on a line ended by `\n` returns the line and leaves what follows. -/
theorem getline_line (line rest str : List Char) (hl : '\n' ∉ line) :
    getline ⟨line ++ '\n' :: rest, false, false⟩ str = (⟨rest, false, false⟩, line) := by
  have hall : ∀ x ∈ line, (x != '\n') = true := fun x hx => by
    simpa using ne_of_mem_of_not_mem hx hl
  have hne : (line ++ '\n' :: rest).isEmpty = false := by simp
  simp [getline, IStream.good, hne, List.takeWhile_append_of_pos hall,
    List.dropWhile_append_of_pos hall]

/-- `getline` on a line ended by `\r\n` returns the line with its `\r`. -/
theorem getline_crlf (line rest str : List Char) (hl : '\n' ∉ line) :
    getline ⟨line ++ crlf ++ rest, false, false⟩ str =
      (⟨rest, false, false⟩, line ++ ['\r']) := by
  have heq : line ++ crlf ++ rest = (line ++ ['\r']) ++ '\n' :: rest := by simp [crlf]
  rw [heq, getline_line _ _ _ (by simpa using hl)]

/-- The status line `version code message\r\n`, followed by anything. -/
theorem readStatusLine_status {version code message : List Char} (rest : List Char)
    (hv : version ≠ []) (hvs : ∀ c ∈ version, isSpace c = false) (hc : code ≠ [])
    (hcd : ∀ c ∈ code, c.isDigit = true) (hm : '\n' ∉ message) :
    readStatusLine ⟨version ++ ' ' :: (code ++ ' ' :: (message ++ crlf ++ rest)), false, false⟩ =
      (if uintMax < decimalValue code then ⟨' ' :: (message ++ crlf ++ rest), true, false⟩
        else ⟨rest, false, false⟩, version, min (decimalValue code) uintMax) := by
  simp only [readStatusLine, extractString_word [] hv hvs (c := ' ') (by decide),
    extractUnsigned_digits (message ++ crlf ++ rest) 0 hc hcd]
  by_cases hov : uintMax < decimalValue code
  · simp [getline, IStream.good, hov]
  · simp only [hov, decide_False, if_false]
    rw [show ' ' :: (message ++ crlf ++ rest) = (' ' :: message) ++ crlf ++ rest from rfl,
      getline_crlf _ _ _ (by simpa using hm)]

/-! ## The delimiter search -/

theorem containsDelim_iff_contiguous (delim : List Char) :
    ∀ data : List Char, containsDelim delim data = true ↔ delim <:+: data
  | [] => by simp [containsDelim, List.infix_nil]
  | c :: data => by
    rw [containsDelim, Bool.or_eq_true, List.isPrefixOf_iff_prefix,
      containsDelim_iff_contiguous delim data, List.infix_cons_iff]

theorem containsDelim_self_append (delim rest : List Char) :
    containsDelim delim (delim ++ rest) = true :=
  (containsDelim_iff_contiguous _ _).2 (List.prefix_append _ _).isInfix

theorem containsDelim_append_left (delim : List Char) {data : List Char}
    (h : containsDelim delim data = true) (pre : List Char) :
    containsDelim delim (pre ++ data) = true :=
  (containsDelim_iff_contiguous _ _).2 (((containsDelim_iff_contiguous _ _).1 h).trans
    (List.suffix_append _ _).isInfix)

theorem containsDelim_append_right (delim : List Char) {data : List Char}
    (h : containsDelim delim data = true) (post : List Char) :
    containsDelim delim (data ++ post) = true :=
  (containsDelim_iff_contiguous _ _).2 (((containsDelim_iff_contiguous _ _).1 h).trans
    (List.prefix_append _ _).isInfix)

/-- What `read_until` leaves: the buffer holds the delimiter and, with the chunks still to
come, is what was buffered followed by every chunk; or the delimiter is nowhere in that. -/
theorem readUntil_some {delim : List Char} :
    ∀ {buffer : List Char} {chunks : List (List Char)} {b : List Char} {rest : List (List Char)},
      readUntil delim buffer chunks = some (b, rest) →
        b ++ rest.flatten = buffer ++ chunks.flatten ∧ containsDelim delim b = true
  | buffer, [], b, rest, h => by
    unfold readUntil at h
    split at h <;> cases h
    exact ⟨by simp, ‹_›⟩
  | buffer, chunk :: chunks, b, rest, h => by
    unfold readUntil at h
    split at h
    · cases h; exact ⟨rfl, ‹_›⟩
    · simpa using readUntil_some h

theorem readUntil_none {delim : List Char} :
    ∀ {buffer : List Char} {chunks : List (List Char)},
      readUntil delim buffer chunks = none → containsDelim delim (buffer ++ chunks.flatten) = false
  | buffer, [], h => by
    unfold readUntil at h
    split at h
    · cases h
    · rename_i hd; simpa using hd
  | buffer, chunk :: chunks, h => by
    unfold readUntil at h
    split at h
    · cases h
    · simpa using readUntil_none h

/-- The first `read_until` on a reply whose status line `line` has no `\n`: the buffer holds
the whole status line and its `\r\n`. -/
theorem readUntil_status {line rest : List Char} {chunks : List (List Char)}
    (hl : '\n' ∉ line) (h : chunks.flatten = line ++ crlf ++ rest) :
    ∃ r₁ more, readUntil crlf [] chunks = some (line ++ crlf ++ r₁, more) ∧
      r₁ ++ more.flatten = rest := by
  cases hr : readUntil crlf [] chunks with
  | none =>
    have h' := readUntil_none hr
    rw [List.nil_append, h, List.append_assoc] at h'
    simp [containsDelim_append_left crlf (containsDelim_self_append crlf rest) line] at h'
  | some res =>
    obtain ⟨b, more⟩ := res
    obtain ⟨hb, hd⟩ := readUntil_some hr
    rw [List.nil_append, h, List.append_assoc] at hb
    have hn : '\n' ∈ b := ((containsDelim_iff_contiguous _ _).1 hd).subset (by simp [crlf])
    rcases List.append_eq_append_iff.1 hb with ⟨a', rfl, -⟩ | ⟨c', rfl, hc'⟩
    · exact absurd (List.mem_append_left _ hn) hl
    · rcases c' with _ | ⟨x, _ | ⟨y, r₁⟩⟩
      · exact absurd (by simpa using hn) hl
      · -- the buffer ends between `\r` and `\n`
        simp only [crlf, List.cons_append, List.singleton_append, List.nil_append,
          List.cons.injEq] at hc'
        obtain ⟨rfl, -⟩ := hc'
        rcases List.mem_append.1 hn with hn | hn
        · exact absurd hn hl
        · exact absurd hn (by decide)
      · simp only [crlf, List.cons_append, List.nil_append, List.cons.injEq] at hc'
        obtain ⟨rfl, rfl, hr₁⟩ := hc'
        exact ⟨r₁, more, by simp [crlf], hr₁.symm⟩

/-! ## The header loop -/

/-- Input the header loop stops in: a line that is just `\r` comes after whole lines. -/
inductive EndsHeaders : List Char → Prop
  | blank (rest : List Char) : EndsHeaders ('\r' :: '\n' :: rest)
  | line (l rest : List Char) : '\n' ∉ l → EndsHeaders rest → EndsHeaders (l ++ '\n' :: rest)

theorem EndsHeaders.prepend {rest : List Char} (h : EndsHeaders rest) :
    ∀ (x l : List Char), '\n' ∉ l → EndsHeaders (l ++ x ++ '\n' :: rest)
  | [], l, hl => by simpa using EndsHeaders.line l rest hl h
  | c :: x, l, hl => by
    by_cases hc : c = '\n'
    · subst hc
      simpa using EndsHeaders.line l _ hl (by simpa using EndsHeaders.prepend h x [] (by simp))
    · simpa using EndsHeaders.prepend h x (l ++ [c]) (by simp [hl, Ne.symm hc])

theorem endsHeaders_of_containsDelim {b : List Char} (h : containsDelim (crlf ++ crlf) b = true) :
    EndsHeaders b := by
  obtain ⟨pre, post, rfl⟩ := (containsDelim_iff_contiguous _ _).1 h
  simpa [crlf] using (EndsHeaders.blank post).prepend (pre ++ ['\r']) [] (by simp)

/-- One turn of the header loop on a whole line. -/
theorem skipHeaders_line (l rest : List Char) (hl : '\n' ∉ l) :
    skipHeaders ⟨l ++ '\n' :: rest, false, false⟩ =
      if l = ['\r'] then ⟨rest, false, false⟩ else skipHeaders ⟨rest, false, false⟩ := by
  rw [skipHeaders, getline_line _ _ _ hl]
  by_cases hr : l = ['\r'] <;> simp [hr]

/-- Where the header loop stops, more input after it changes nothing before it. -/
theorem skipHeaders_append {b : List Char} (h : EndsHeaders b) (t : List Char) :
    (skipHeaders ⟨b ++ t, false, false⟩).rest = (skipHeaders ⟨b, false, false⟩).rest ++ t := by
  induction h with
  | blank rest =>
    have h₁ := skipHeaders_line ['\r'] (rest ++ t) (by decide)
    have h₂ := skipHeaders_line ['\r'] rest (by decide)
    simp only [List.singleton_append, if_true] at h₁ h₂
    rw [List.cons_append, List.cons_append, h₁, h₂]
  | line l rest hl _ ih =>
    rw [List.append_assoc, List.cons_append, skipHeaders_line _ _ hl, skipHeaders_line _ _ hl]
    by_cases hr : l = ['\r'] <;> simp [hr, ih]

/-- The second `read_until` and the header loop see what the socket delivers, not how it is
cut: the loop stops inside the buffer, and later chunks are only appended. -/
theorem readUntil_headers {buffer b : List Char} {chunks more : List (List Char)}
    (h : readUntil (crlf ++ crlf) buffer chunks = some (b, more)) :
    containsDelim (crlf ++ crlf) (buffer ++ chunks.flatten) = true ∧
      (skipHeaders ⟨b, false, false⟩).rest ++ more.flatten =
        (skipHeaders ⟨buffer ++ chunks.flatten, false, false⟩).rest := by
  obtain ⟨hb, hd⟩ := readUntil_some h
  rw [← hb, skipHeaders_append (endsHeaders_of_containsDelim hd)]
  exact ⟨containsDelim_append_right _ hd _, rfl⟩

/-- The header loop on header lines ended by `\r\n` and a blank line stops after the blank
line. -/
theorem skipHeaders_render (body : List Char) :
    ∀ headers : List (List Char), (∀ h ∈ headers, h ≠ [] ∧ '\n' ∉ h) →
      skipHeaders ⟨(headers.map (· ++ crlf)).flatten ++ crlf ++ body, false, false⟩ =
        ⟨body, false, false⟩
  | [], _ => by
    rw [skipHeaders, List.map_nil, List.flatten_nil, getline_crlf [] body [] (by simp)]
    simp
  | h :: headers, hh => by
    obtain ⟨hne, hn⟩ := hh h (List.mem_cons_self _ _)
    have hline : h ++ ['\r'] ≠ ['\r'] := by simpa using hne
    have hstate : ((h :: headers).map (· ++ crlf)).flatten ++ (crlf ++ body) =
        h ++ crlf ++ ((headers.map (· ++ crlf)).flatten ++ crlf ++ body) := by simp
    rw [skipHeaders, List.append_assoc, hstate,
      getline_crlf h ((headers.map (· ++ crlf)).flatten ++ crlf ++ body) [] hn]
    simp only [hline, ne_eq, not_false_eq_true, and_self, dite_true]
    exact skipHeaders_render body headers fun h' hm => hh h' (List.mem_cons_of_mem _ hm)

/-! ## Replies with a well-formed status line -/

theorem newline_not_mem_status {version code message : List Char}
    (hvs : ∀ c ∈ version, isSpace c = false) (hcd : ∀ c ∈ code, c.isDigit = true)
    (hm : '\n' ∉ message) : '\n' ∉ version ++ ' ' :: (code ++ ' ' :: message) := by
  intro h
  simp only [List.mem_append, List.mem_cons] at h
  rcases h with h | h | h | h | h
  · exact absurd (hvs _ h) (by decide)
  · exact absurd h (by decide)
  · exact absurd (hcd _ h) (by decide)
  · exact absurd h (by decide)
  · exact hm h

section
variable {version code message : List Char} (hv : version ≠ [])
  (hvs : ∀ c ∈ version, isSpace c = false) (hc : code ≠ []) (hcd : ∀ c ∈ code, c.isDigit = true)
  (hm : '\n' ∉ message)
include hv hvs hc hcd hm

/-- **What `fetchUrlContents` returns after a well-formed status line**, however the reply is
cut into chunks: the input after the blank line that ends the headers, when the version
starts with `HTTP/`, the status reads as `200`, and `\r\n\r\n` occurs after the status line;
otherwise `""`. -/
theorem fetchUrlContents_status (chunks : List (List Char)) {rest : List Char}
    (h : chunks.flatten = version ++ ' ' :: (code ++ ' ' :: (message ++ crlf ++ rest))) :
    fetchUrlContents chunks =
      if version.take 5 = httpPrefix ∧ decimalValue code = 200 ∧
          containsDelim (crlf ++ crlf) rest = true
      then (skipHeaders ⟨rest, false, false⟩).rest else [] := by
  have hsplit : chunks.flatten = version ++ ' ' :: (code ++ ' ' :: message) ++ crlf ++ rest := by
    rw [h]; simp
  obtain ⟨r₁, more, hfirst, hr₁⟩ := readUntil_status (newline_not_mem_status hvs hcd hm) hsplit
  have hline : version ++ ' ' :: (code ++ ' ' :: message) ++ crlf ++ r₁ =
      version ++ ' ' :: (code ++ ' ' :: (message ++ crlf ++ r₁)) := by simp
  rw [fetchUrlContents, hfirst]
  dsimp only
  rw [hline, readStatusLine_status r₁ hv hvs hc hcd hm]
  by_cases hov : uintMax < decimalValue code
  · -- the status does not fit: the stream fails
    have h200 : decimalValue code ≠ 200 := by unfold uintMax uintModulus at hov; omega
    simp [hov, h200]
  simp only [hov, if_false, Bool.false_or, Nat.min_eq_left (Nat.le_of_not_lt hov), bne_iff_ne,
    ne_eq, ite_not]
  by_cases hver : version.take 5 = httpPrefix
  · by_cases h200 : decimalValue code = 200
    · simp only [hver, h200, if_true, true_and, decide_True, decide_False, Bool.not_true,
        Bool.false_eq_true, if_false]
      cases hsecond : readUntil (crlf ++ crlf) r₁ more with
      | none => simp [← hr₁, readUntil_none hsecond]
      | some res =>
        obtain ⟨hd, hbody⟩ := readUntil_headers hsecond
        rw [hr₁] at hd hbody
        simp [hd, hbody]
    · simp [hver, h200]
  · simp [hver]

/-- **The chunks do not matter.** For a reply whose status line is well formed (a version
with no whitespace, a run of digits, a message with no newline, then `\r\n`), whatever
follows it and however the socket cuts the reply into reads, `fetchUrlContents` returns what
it returns for the reply delivered in one read. -/
theorem fetchUrlContents_any_chunking (chunks : List (List Char)) {rest : List Char}
    (h : chunks.flatten = version ++ ' ' :: (code ++ ' ' :: (message ++ crlf ++ rest))) :
    fetchUrlContents chunks = readResponse chunks.flatten := by
  rw [fetchUrlContents_status hv hvs hc hcd hm chunks h, readResponse,
    fetchUrlContents_status hv hvs hc hcd hm [chunks.flatten] (by simpa using h)]

end

theorem reply_in_four_reads :
    fetchUrlContents ["HTTP/1.0 2".toList, "00 OK\r\nServer: x\r".toList, "\n\r\nhel".toList,
        "lo".toList] =
      readResponse (["HTTP/1.0 2".toList, "00 OK\r\nServer: x\r".toList, "\n\r\nhel".toList,
        "lo".toList].flatten) :=
  fetchUrlContents_any_chunking (by decide) (by decide) (by decide) (by decide) (by decide) _
    (show _ = "HTTP/1.0".toList ++ ' ' :: ("200".toList ++ ' ' :: ("OK".toList ++ crlf ++
      "Server: x\r\n\r\nhello".toList)) by decide)

/-! ## Replies written in the usual form -/

/-- **What `fetchUrlContents` returns for a reply in the usual form.** For a version with no
whitespace, a status made of digits, a status message and header lines with no `\n`, and no
header line empty, the body is returned exactly when the version starts with `HTTP/`, the
status reads as `200`, and `\r\n\r\n` occurs after the status line. Otherwise `""` is
returned. -/
theorem readResponse_renderResponse {version code message body : List Char}
    {headers : List (List Char)} (hv : version ≠ []) (hvs : ∀ c ∈ version, isSpace c = false)
    (hc : code ≠ []) (hcd : ∀ c ∈ code, c.isDigit = true) (hm : '\n' ∉ message)
    (hh : ∀ h ∈ headers, h ≠ [] ∧ '\n' ∉ h) :
    readResponse (renderResponse version code message headers body) =
      if version.take 5 = httpPrefix ∧ decimalValue code = 200 ∧
          containsDelim (crlf ++ crlf) ((headers.map (· ++ crlf)).flatten ++ crlf ++ body) = true
      then body else [] := by
  have hsplit : [renderResponse version code message headers body].flatten =
      version ++ ' ' :: (code ++ ' ' :: (message ++ crlf ++
        ((headers.map (· ++ crlf)).flatten ++ crlf ++ body))) := by
    simp [renderResponse]
  rw [readResponse, fetchUrlContents_status hv hvs hc hcd hm _ hsplit,
    skipHeaders_render body headers hh]

/-- **Round trip.** A reply in the usual form with at least one header line reads back as its
body when its version starts with `HTTP/` and its status reads as `200`, and as `""`
otherwise. -/
theorem readResponse_round_trip {version code message body : List Char}
    {headers : List (List Char)} (hv : version ≠ []) (hvs : ∀ c ∈ version, isSpace c = false)
    (hc : code ≠ []) (hcd : ∀ c ∈ code, c.isDigit = true) (hm : '\n' ∉ message)
    (hh : ∀ h ∈ headers, h ≠ [] ∧ '\n' ∉ h) (hne : headers ≠ []) :
    readResponse (renderResponse version code message headers body) =
      if version.take 5 = httpPrefix ∧ decimalValue code = 200 then body else [] := by
  obtain ⟨init, last, rfl⟩ := (List.eq_nil_or_concat headers).resolve_left hne
  have hblank : containsDelim (crlf ++ crlf)
      (((init.concat last).map (· ++ crlf)).flatten ++ crlf ++ body) = true := by
    simpa using containsDelim_append_left (crlf ++ crlf) (containsDelim_self_append _ body)
      ((init.map (· ++ crlf)).flatten ++ last)
  rw [readResponse_renderResponse hv hvs hc hcd hm hh]
  simp only [hblank, and_true]

theorem reply_with_header_read_back :
    readResponse (renderResponse "HTTP/1.0".toList "200".toList "OK".toList
        ["Server: x".toList] "hello".toList) = "hello".toList :=
  (readResponse_round_trip (by decide) (by decide) (by decide) (by decide) (by decide) (by decide)
    (by decide)).trans (by decide)

/-- **A reply with no header line.** The second `read_until` looks for `\r\n\r\n` after the
status line, where such a reply has only `\r\n` and the body. Unless the body supplies one,
the read fails at the end of the stream and `""` is returned, even for status `200`. -/
theorem readResponse_without_headers {version code message body : List Char}
    (hv : version ≠ []) (hvs : ∀ c ∈ version, isSpace c = false)
    (hc : code ≠ []) (hcd : ∀ c ∈ code, c.isDigit = true) (hm : '\n' ∉ message) :
    readResponse (renderResponse version code message [] body) =
      if version.take 5 = httpPrefix ∧ decimalValue code = 200 ∧
          containsDelim (crlf ++ crlf) (crlf ++ body) = true
      then body else [] := by
  simpa using (readResponse_renderResponse hv hvs hc hcd hm (by simp) :
    readResponse (renderResponse version code message [] body) = _)

theorem reply_without_header_lost :
    readResponse (renderResponse "HTTP/1.0".toList "200".toList "OK".toList [] "hello".toList) =
      [] :=
  (readResponse_without_headers (by decide) (by decide) (by decide) (by decide) (by decide)).trans
    (by decide)

end Residue.HttpClient

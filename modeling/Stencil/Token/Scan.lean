import Stencil.ParseError

/-!
# Scanning a template into tokens

Outside the markers everything up to the next opening marker is literal text.
Inside them blanks are skipped and the longest token is read: the first character
decides which kind it can be, so a name or a string is read as far as it goes, and
a name that spells a keyword or an operator is that keyword or operator.

`Lexeme.read` reads one token and leaves what follows it; the text of the token and
the rest make up what was read (`Lexeme.read_append`), and the text is never empty.
-/

namespace Stencil

/-! ### Names -/

/-- A letter or an underscore. -/
def isNameStart (c : Char) : Bool := c.isAlpha || c == '_'

/-- What a name goes on with: letters, digits, underscores, dots and hyphens. -/
def isNameChar (c : Char) : Bool := c.isAlphanum || c == '_' || c == '.' || c == '-'

/-- The characters skipped between tokens. -/
def isBlank (c : Char) : Bool := c == ' ' || c == '\t' || c == '\n' || c == '\r'

/-- The token that a name spells: a keyword, an operator, or the name itself. -/
def Token.ofName (name : String) : Token :=
  if name = "if" then .keyword .ifK
  else if name = "elif" then .keyword .elifK
  else if name = "else" then .keyword .elseK
  else if name = "endif" then .keyword .endifK
  else if name = "include" then .keyword .includeK
  else if name = "not" then .notOp
  else if name = "and" then .andOp
  else if name = "or" then .orOp
  else .ident name

/-! ### Quoted strings -/

/-- What follows an opening quote. -/
inductive Quoted where
  /-- The string is closed: what stands between its quotes, escapes and all, and what follows it. -/
  | closed (body rest : List Char)
  /-- The string is never closed: the characters up to where it can no longer go on. -/
  | unclosed (run : List Char)
  deriving DecidableEq, Repr

/-- One more stretch of text before what was read. -/
def Quoted.push (text : List Char) : Quoted → Quoted
  | closed body rest => closed (text ++ body) rest
  | unclosed run => unclosed (text ++ run)

/-- Reads up to the closing quote `q`. A backslash takes the next character with it,
and no string goes on at a backslash before a line feed or at the end of the text. -/
def Quoted.read (q : Char) : List Char → Quoted
  | [] => .unclosed []
  | ['\\'] => .unclosed []
  | '\\' :: c :: cs => if c = '\n' then .unclosed [] else (Quoted.read q cs).push ['\\', c]
  | c :: cs => if c = q then .closed [] cs else (Quoted.read q cs).push [c]

/-- What a string stands for: a backslash is dropped and the character after it kept. -/
def unescape : List Char → List Char
  | '\\' :: c :: cs => c :: unescape cs
  | ['\\'] => []
  | c :: cs => c :: unescape cs
  | [] => []

/-! ### One token -/

/-- The outcome of reading at one place between markers. -/
inductive Lexeme where
  /-- A token, the text it was read from, and what follows. -/
  | token (t : Token) (text rest : List Char)
  /-- Text that no token begins with. -/
  | unknown (text : List Char)
  deriving DecidableEq, Repr

/-- Reads the longest token at the head of a text that begins with no blank. -/
def Lexeme.read : List Char → Lexeme
  | [] => .unknown []
  | '[' :: '%' :: cs => .token .directiveOpen ['[', '%'] cs
  | '[' :: '[' :: cs => .token .interpolationOpen ['[', '['] cs
  | '%' :: ']' :: cs => .token .directiveClose ['%', ']'] cs
  | ']' :: ']' :: cs => .token .interpolationClose [']', ']'] cs
  | c :: cs =>
    if c = '(' then .token .parenOpen [c] cs
    else if c = ')' then .token .parenClose [c] cs
    else if c = '$' then
      if cs.head?.any isNameStart then
        .token (.var (String.ofList (cs.takeWhile isNameChar))) (c :: cs.takeWhile isNameChar)
          (cs.dropWhile isNameChar)
      else .unknown [c]
    else if isNameStart c then
      .token (.ofName (String.ofList (c :: cs.takeWhile isNameChar))) (c :: cs.takeWhile isNameChar)
        (cs.dropWhile isNameChar)
    else if c = '\x22' ∨ c = '\x27' then
      match Quoted.read c cs with
      | .closed body rest => .token (.string (String.ofList (unescape body))) (c :: body ++ [c]) rest
      | .unclosed run => .unknown (c :: run)
    else .unknown [c]

theorem Quoted.push_eq_closed {text body rest : List Char} {r : Quoted}
    (h : r.push text = .closed body rest) :
    ∃ b, r = .closed b rest ∧ body = text ++ b := by
  cases r with
  | closed b r' =>
    simp only [Quoted.push, Quoted.closed.injEq] at h
    exact ⟨b, by rw [h.2], h.1.symm⟩
  | unclosed run => simp [Quoted.push] at h

/-- A closed string, its closing quote and what follows it make up the text. -/
theorem Quoted.read_append {q : Char} {cs body rest : List Char}
    (h : Quoted.read q cs = .closed body rest) : body ++ q :: rest = cs := by
  fun_induction Quoted.read q cs generalizing body with
  | case1 => simp at h
  | case2 => simp at h
  | case3 => simp at h
  | case4 c cs hc ih =>
    obtain ⟨b, hb, rfl⟩ := Quoted.push_eq_closed h
    simp [ih hb]
  | case5 c cs =>
    simp only [Quoted.closed.injEq] at h
    obtain ⟨rfl, rfl⟩ := h
    rfl
  | case6 c cs _ _ hc ih =>
    obtain ⟨b, hb, rfl⟩ := Quoted.push_eq_closed h
    simp [ih hb]

/-- A token's text and what follows it make up what was read. -/
theorem Lexeme.read_append {cs text rest : List Char} {t : Token}
    (h : Lexeme.read cs = .token t text rest) : text ++ rest = cs := by
  unfold Lexeme.read at h
  split at h
  case h_1 => simp at h
  case h_6 c cs _ _ _ _ =>
    split at h
    · simp only [Lexeme.token.injEq] at h
      obtain ⟨-, rfl, rfl⟩ := h
      rfl
    split at h
    · simp only [Lexeme.token.injEq] at h
      obtain ⟨-, rfl, rfl⟩ := h
      rfl
    split at h
    · split at h
      · simp only [Lexeme.token.injEq] at h
        obtain ⟨-, rfl, rfl⟩ := h
        simp [List.takeWhile_append_dropWhile]
      · simp at h
    split at h
    · simp only [Lexeme.token.injEq] at h
      obtain ⟨-, rfl, rfl⟩ := h
      simp [List.takeWhile_append_dropWhile]
    split at h
    · split at h
      · next body rest hq =>
        simp only [Lexeme.token.injEq] at h
        obtain ⟨-, rfl, rfl⟩ := h
        simpa using Quoted.read_append hq
      · simp at h
    · simp at h
  all_goals
    simp only [Lexeme.token.injEq] at h
    obtain ⟨-, rfl, rfl⟩ := h
    rfl

/-- No token is read from an empty text. -/
theorem Lexeme.read_ne_nil {cs text rest : List Char} {t : Token}
    (h : Lexeme.read cs = .token t text rest) : text ≠ [] := by
  rintro rfl
  unfold Lexeme.read at h
  repeat' split at h
  all_goals simp at h

/-- Every token leaves less than there was. -/
theorem Lexeme.read_length_lt {cs text rest : List Char} {t : Token}
    (h : Lexeme.read cs = .token t text rest) : rest.length < cs.length := by
  have happ := Lexeme.read_append h
  have hne := List.length_pos_iff.2 (Lexeme.read_ne_nil h)
  rw [← happ, List.length_append]
  omega

/-! ### Markers -/

/-- The literal text before the first opening marker, the construct it opens, and what
follows the marker. -/
def nextMarker : List Char → Option (List Char × Construct × List Char)
  | [] => none
  | '[' :: '%' :: cs => some ([], .directive, cs)
  | '[' :: '[' :: cs => some ([], .interpolation, cs)
  | c :: cs => (nextMarker cs).map fun (before, k, rest) => (c :: before, k, rest)

/-- Whether the pair of characters `m` occurs anywhere. -/
def occurs (m : Char × Char) : List Char → Bool
  | a :: b :: cs => (a == m.1 && b == m.2) || occurs m (b :: cs)
  | _ => false

/-- An opening marker leaves less than there was. -/
theorem nextMarker_length_lt {cs before rest : List Char} {k : Construct}
    (h : nextMarker cs = some (before, k, rest)) : rest.length < cs.length := by
  fun_induction nextMarker cs generalizing before with
  | case1 => simp at h
  | case2 cs =>
    simp only [Option.some.injEq, Prod.mk.injEq] at h
    obtain ⟨-, -, rfl⟩ := h
    simp only [List.length_cons]
    omega
  | case3 cs =>
    simp only [Option.some.injEq, Prod.mk.injEq] at h
    obtain ⟨-, -, rfl⟩ := h
    simp only [List.length_cons]
    omega
  | case4 c cs _ _ ih =>
    obtain ⟨⟨b, k', r⟩, hm, he⟩ := Option.map_eq_some_iff.1 h
    simp only [Prod.mk.injEq] at he
    obtain ⟨-, rfl, rfl⟩ := he
    have := ih hm
    simp only [List.length_cons]
    omega

/-! ### The scanner -/

namespace Token

/-- Where the scanner stands. -/
inductive Region where
  /-- In literal text. -/
  | outside
  /-- Inside the construct whose opening marker begins at `start`. -/
  | inside (construct : Construct) (start : Nat)

/-- The token of a stretch of literal text at `pos`; an empty stretch is no token. -/
def literal (pos : Nat) (cs : List Char) : List (Spanned Token) :=
  if cs.isEmpty then [] else [⟨.text (String.ofList cs), pos, pos + Text.size cs⟩]

/-- The tokens of a text that begins at byte offset `pos`. -/
def scanFrom : Region → Nat → List Char → Except ParseError (List (Spanned Token))
  | .outside, pos, cs =>
    match _h : nextMarker cs with
    | none => .ok (literal pos cs)
    | some (before, k, rest) =>
      let start := pos + Text.size before
      let base := start + Construct.markSize
      if occurs k.closeMark rest then do
        let more ← scanFrom (.inside k start) base rest
        return literal pos before ++ ⟨k.openToken, start, base⟩ :: more
      else .error ⟨.unterminated k, start, base⟩
  | .inside k start, _, [] => .error ⟨.unterminated k, start, start + Construct.markSize⟩
  | .inside k start, pos, c :: cs =>
    if isBlank c then scanFrom (.inside k start) (pos + c.utf8Size) cs
    else
      match _h : Lexeme.read (c :: cs) with
      | .unknown found =>
        .error ⟨.unexpectedCharacter (String.ofList found) k, pos, pos + Text.size found⟩
      | .token t lexeme rest => do
        let stop := pos + Text.size lexeme
        let more ← scanFrom (if t = k.closeToken then .outside else .inside k start) stop rest
        return ⟨t, pos, stop⟩ :: more
termination_by _ _ cs => cs.length
decreasing_by
  · exact nextMarker_length_lt _h
  · simp
  · exact Lexeme.read_length_lt _h

/-- The tokens of a template, or the first place where it cannot be scanned. -/
def scan (source : String) : Except ParseError (List (Spanned Token)) :=
  scanFrom .outside 0 source.toList

end Token

end Stencil

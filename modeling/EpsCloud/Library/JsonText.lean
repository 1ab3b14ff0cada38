import EpsCloud.Library.TextReader

/-!
# JSON texts

A text is a list of code points, which may be surrogates.  The writer keeps to printable ASCII: it
escapes all other code points, those beyond the first plane as two surrogates.  So the reader takes
two surrogates that form a pair as the one code point that they encode, whether they were written
for it or for themselves.  The values are texts, booleans and objects; the reader takes blanks
wherever the format has them.

* `readQuoted_written`: a text is read back, its pairs of surrogates joined.
* `reads_dumps`, `loads_dumps`: so is a value, in any layout.
* `isPrintable_dumps`: what is written on one line is printable ASCII.
-/

namespace JsonText

open TextReader

/-! ## Code points -/

/-- A code point; the surrogates are code points too. -/
@[ext]
structure Code where
  point : ℕ
  lt : point < 1114112
  deriving DecidableEq

theorem toNat_lt (c : Char) : c.toNat < 1114112 := by
  have hvalid : c.toNat < 55296 ∨ 57343 < c.toNat ∧ c.toNat < 1114112 := c.valid
  omega

def Code.ofChar (c : Char) : Code := ⟨c.toNat, toNat_lt c⟩

/-- The code points of a text without surrogates. -/
def codes (s : List Char) : List Code := s.map Code.ofChar

/-- The code point of a number, if there is one. -/
def code? (n : ℕ) : Option Code := if h : n < 1114112 then some ⟨n, h⟩ else none

/-- The first one of a pair of surrogates. -/
def isHigh (n : ℕ) : Bool := 55296 ≤ n ∧ n < 56320

/-- The second one of a pair of surrogates. -/
def isLow (n : ℕ) : Bool := 56320 ≤ n ∧ n < 57344

theorem isHigh_iff {n : ℕ} : isHigh n ↔ 55296 ≤ n ∧ n < 56320 := by
  rw [isHigh, decide_eq_true_eq]

theorem isLow_iff {n : ℕ} : isLow n ↔ 56320 ≤ n ∧ n < 57344 := by
  rw [isLow, decide_eq_true_eq]

/-- What a pair of surrogates encodes. -/
def pairPoint (m n : ℕ) : ℕ := 65536 + (m - 55296) * 1024 + (n - 56320)

theorem pairPoint_lt {m n : ℕ} (h : isHigh m ∧ isLow n) : pairPoint m n < 1114112 := by
  have hm := isHigh_iff.mp h.1
  have hn := isLow_iff.mp h.2
  unfold pairPoint
  omega

/-- The text with its pairs of surrogates joined, from its front. -/
def join : List Code → List Code
  | c :: d :: s =>
    if h : isHigh c.point ∧ isLow d.point then ⟨pairPoint c.point d.point, pairPoint_lt h⟩ :: join s
    else c :: join (d :: s)
  | [c] => [c]
  | [] => []

/-- A text without the first one of a pair has no pairs. -/
theorem join_of_not_high {s : List Code} (h : ∀ c ∈ s, isHigh c.point = false) : join s = s := by
  induction s using join.induct with
  | case1 c d s hpair =>
    rw [h c List.mem_cons_self] at hpair
    exact absurd hpair.1 Bool.false_ne_true
  | case2 c d s hpair ih =>
    rw [join, dif_neg hpair, ih fun c hc => h c (List.mem_cons_of_mem _ hc)]
  | case3 c => rw [join]
  | case4 => rw [join]

theorem isHigh_toNat (c : Char) : isHigh c.toNat = false := by
  have hvalid : c.toNat < 55296 ∨ 57343 < c.toNat ∧ c.toNat < 1114112 := c.valid
  refine Bool.eq_false_iff.mpr fun h => ?_
  rw [isHigh_iff] at h
  omega

/-- **A text without surrogates is left as it is.** -/
theorem join_codes (s : List Char) : join (codes s) = codes s :=
  join_of_not_high fun c hc => by
    obtain ⟨d, -, rfl⟩ := List.mem_map.mp hc
    exact isHigh_toNat d

/-! ## The reader -/

def hexValue (c : Char) : Option ℕ :=
  if '0' ≤ c ∧ c ≤ '9' then some (c.toNat - 48)
  else if 'a' ≤ c ∧ c ≤ 'f' then some (c.toNat - 87)
  else if 'A' ≤ c ∧ c ≤ 'F' then some (c.toNat - 55)
  else none

def readHexDigit : TextReader Char ℕ := next >>= fun c => orFail (hexValue c)

def readHex4 : TextReader Char ℕ := do
  let a ← readHexDigit
  let b ← readHexDigit
  let c ← readHexDigit
  let d ← readHexDigit
  pure (((a * 16 + b) * 16 + c) * 16 + d)

/-- The second one of a pair, if the text goes on with it. -/
def peekLow : List Char → Option (ℕ × List Char)
  | '\\' :: 'u' :: s =>
    match readHex4 s with
    | some (n, s') => if isLow n then some (n, s') else none
    | none => none
  | _ => none

/-- The code point of an escape; the first one of a pair takes the second one with it. -/
def readUnit (m : ℕ) : TextReader Char Code := fun s =>
  match peekLow s with
  | some (n, s') =>
    if h : isHigh m ∧ isLow n then some (⟨pairPoint m n, pairPoint_lt h⟩, s')
    else orFail (code? m) s
  | none => orFail (code? m) s

/-- What stands past a backslash and the character. -/
def unescape : Char → TextReader Char Code
  | '"' => pure (.ofChar '"')
  | '\\' => pure (.ofChar '\\')
  | '/' => pure (.ofChar '/')
  | 'b' => pure (.ofChar '\x08')
  | 'f' => pure (.ofChar '\x0c')
  | 'n' => pure (.ofChar '\n')
  | 'r' => pure (.ofChar '\r')
  | 't' => pure (.ofChar '\t')
  | 'u' => readHex4 >>= readUnit
  | _ => fail

/-- A code point of a text. -/
def readTextCode : TextReader Char Code := next >>= fun c =>
  if c = '\\' then next >>= unescape
  else if c = '"' ∨ c < ' ' then fail
  else pure (.ofChar c)

/-- The text whose quote has been taken. -/
def readQuoted : TextReader Char (List Code) := withLength (itemsUntil '"' readTextCode)

def isBlank (c : Char) : Bool := c = ' ' ∨ c = '\n' ∨ c = '\r' ∨ c = '\t'

/-- A value of texts, booleans and objects. -/
inductive Tree where
  | text (value : List Code)
  | bool (value : Bool)
  | object (members : List (List Code × Tree))

/-- The value of a key in an object, the last one where the key repeats. -/
def Tree.member? (key : List Char) : Tree → Option Tree
  | .object members => (members.reverse.find? fun m => m.1 = codes key).map Prod.snd
  | _ => none

/-- The member whose quote has been taken. -/
def readMember (value : TextReader Char Tree) : TextReader Char (List Code × Tree) := do
  let key ← readQuoted
  skip isBlank
  symbol ':'
  let v ← value
  pure (key, v)

/-- What follows a member, past its first character; `more` reads on. -/
def readFurther (value : TextReader Char Tree)
    (more : TextReader Char (List (List Code × Tree))) :
    Char → TextReader Char (List (List Code × Tree))
  | '\x7d' => pure []
  | ',' => do
    skip isBlank
    symbol '"'
    let member ← readMember value
    let members ← more
    pure (member :: members)
  | _ => fail

/-- The members that follow another one; at most so many. -/
def readMembers (value : TextReader Char Tree) :
    ℕ → TextReader Char (List (List Code × Tree))
  | 0 => fail
  | n + 1 => do
    skip isBlank
    next >>= readFurther value (readMembers value n)

/-- The object past its brace and the next character. -/
def readObject (value : TextReader Char Tree) : Char → TextReader Char (List (List Code × Tree))
  | '\x7d' => pure []
  | '"' => do
    let member ← readMember value
    let members ← withLength (readMembers value)
    pure (member :: members)
  | _ => fail

/-- A value past its first character, where `value` reads the values in it. -/
def readRest (value : TextReader Char Tree) : Char → TextReader Char Tree
  | '"' => do
    let s ← readQuoted
    pure (.text s)
  | '\x7b' => do
    skip isBlank
    let members ← next >>= readObject value
    pure (.object members)
  | 't' => do
    literal ['r', 'u', 'e']
    pure (.bool true)
  | 'f' => do
    literal ['a', 'l', 's', 'e']
    pure (.bool false)
  | _ => fail

/-- A value that is nested less deep than the number. -/
def readValue : ℕ → TextReader Char Tree
  | 0 => fail
  | n + 1 => do
    skip isBlank
    next >>= readRest (readValue n)

def readJson : TextReader Char Tree := withLength readValue

/-- The value of a whole text. -/
def loads (s : List Char) : Option Tree :=
  readWhole (do
    let v ← readJson
    skip isBlank
    pure v) s

/-! ## The writer -/

def hex4 (n : ℕ) : List Char :=
  [Nat.digitChar (n / 4096 % 16), Nat.digitChar (n / 256 % 16), Nat.digitChar (n / 16 % 16),
    Nat.digitChar (n % 16)]

/-- The letter of a code point that has an escape of its own. -/
def shortEscape? : ℕ → Option Char
  | 34 => some '"'
  | 92 => some '\\'
  | 10 => some 'n'
  | 13 => some 'r'
  | 9 => some 't'
  | 8 => some 'b'
  | 12 => some 'f'
  | _ => none

def unitEscape (n : ℕ) : List Char := '\\' :: 'u' :: hex4 n

def writeCode (c : Code) : List Char :=
  match shortEscape? c.point with
  | some d => ['\\', d]
  | none =>
    if 32 ≤ c.point ∧ c.point ≤ 126 then [Char.ofNat c.point]
    else if c.point < 65536 then unitEscape c.point
    else
      unitEscape (55296 + (c.point - 65536) / 1024) ++
        unitEscape (56320 + (c.point - 65536) % 1024)

def writeText (s : List Code) : List Char := '"' :: s.flatMap writeCode ++ ['"']

/-- The blanks between the members of an object, by how deep it is nested. -/
structure Layout where
  opening : ℕ → List Char
  between : ℕ → List Char
  closing : ℕ → List Char
  blank_opening : ∀ n, ∀ c ∈ opening n, isBlank c = true
  blank_between : ∀ n, ∀ c ∈ between n, isBlank c = true
  blank_closing : ∀ n, ∀ c ∈ closing n, isBlank c = true

mutual

/-- `json.dumps` -/
def dumps (layout : Layout) (n : ℕ) : Tree → List Char
  | .text s => writeText s
  | .bool true => ['t', 'r', 'u', 'e']
  | .bool false => ['f', 'a', 'l', 's', 'e']
  | .object [] => ['\x7b', '\x7d']
  | .object (member :: members) =>
    '\x7b' :: dumpsMembers layout n (layout.opening n) (member :: members)

/-- The members, past what stands before the first of them. -/
def dumpsMembers (layout : Layout) (n : ℕ) : List Char → List (List Code × Tree) → List Char
  | _, [] => layout.closing n ++ ['\x7d']
  | start, (key, v) :: members =>
    start ++ (writeText key ++ (':' :: ' ' :: dumps layout (n + 1) v ++
      dumpsMembers layout n (',' :: layout.between n) members))

end

/-- All on one line. -/
def oneLine : Layout where
  opening _ := []
  between _ := [' ']
  closing _ := []
  blank_opening _ _ hc := absurd hc List.not_mem_nil
  blank_between _ _ hc := by rw [List.mem_singleton.mp hc]; rfl
  blank_closing _ _ hc := absurd hc List.not_mem_nil

theorem isBlank_of_mem_indent {n : ℕ} {c : Char} (h : c ∈ '\n' :: List.replicate n ' ') :
    isBlank c = true := by
  rcases List.mem_cons.mp h with rfl | h
  · rfl
  · rw [List.eq_of_mem_replicate h]
    rfl

/-- Each member on a line of its own, `width` blanks further in. -/
def indented (width : ℕ) : Layout where
  opening n := '\n' :: List.replicate (width * (n + 1)) ' '
  between n := '\n' :: List.replicate (width * (n + 1)) ' '
  closing n := '\n' :: List.replicate (width * n) ' '
  blank_opening _ _ := isBlank_of_mem_indent
  blank_between _ _ := isBlank_of_mem_indent
  blank_closing _ _ := isBlank_of_mem_indent

/-! ## Texts -/

theorem hexValue_digitChar {n : ℕ} (h : n < 16) : hexValue (Nat.digitChar n) = some n := by
  interval_cases n <;> decide

theorem reads_hexDigit {n : ℕ} (h : n < 16) : Reads readHexDigit [Nat.digitChar n] n :=
  Reads.next (Reads.orFail (hexValue_digitChar h))

theorem reads_hex4 {n : ℕ} (h : n < 65536) : Reads readHex4 (hex4 n) n := by
  have hvalue : ((n / 4096 % 16 * 16 + n / 256 % 16) * 16 + n / 16 % 16) * 16 + n % 16 = n := by
    omega
  have hdigit : ∀ m, Reads readHexDigit [Nat.digitChar (m % 16)] (m % 16) := fun m =>
    reads_hexDigit (Nat.mod_lt m (by decide))
  have hread : Reads readHex4 (hex4 n)
      (((n / 4096 % 16 * 16 + n / 256 % 16) * 16 + n / 16 % 16) * 16 + n % 16) :=
    (hdigit (n / 4096)).bind ((hdigit (n / 256)).bind ((hdigit (n / 16)).bind
      ((hdigit n).map _)))
  rwa [hvalue] at hread

theorem peekLow_unitEscape {n : ℕ} (h : n < 65536) (rest : List Char) :
    peekLow (unitEscape n ++ rest) = if isLow n then some (n, rest) else none := by
  change (match readHex4 (hex4 n ++ rest) with
    | some (n, s') => if isLow n then some (n, s') else none
    | none => none) = _
  rw [reads_hex4 h rest]

theorem readTextCode_unitEscape {n : ℕ} (h : n < 65536) (rest : List Char) :
    readTextCode (unitEscape n ++ rest) = readUnit n rest := by
  change (readHex4 >>= readUnit) (hex4 n ++ rest) = _
  rw [run_bind, reads_hex4 h rest]
  rfl

/-- An escape that is no pair. -/
theorem readUnit_alone {c : Code} {rest : List Char} (h : isHigh c.point → peekLow rest = none) :
    readUnit c.point rest = some (c, rest) := by
  have hcode : orFail (code? c.point) rest = some (c, rest) := by
    rw [code?, dif_pos c.lt]
    rfl
  rw [readUnit]
  cases hpeek : peekLow rest with
  | none => exact hcode
  | some p =>
    refine (dif_neg fun hpair => ?_).trans hcode
    rw [h hpair.1] at hpeek
    cases hpeek

/-- An escape that is a pair. -/
theorem readUnit_pair {m n : ℕ} (h : isHigh m ∧ isLow n) (rest : List Char) :
    readUnit m (unitEscape n ++ rest) = some (⟨pairPoint m n, pairPoint_lt h⟩, rest) := by
  have hn := isLow_iff.mp h.2
  rw [readUnit, peekLow_unitEscape (by omega), if_pos h.2]
  exact dif_pos h

theorem unescape_shortEscape {c : Code} {d : Char} (h : shortEscape? c.point = some d) :
    unescape d = pure c := by
  obtain ⟨n, hn⟩ := c
  dsimp only at h
  unfold shortEscape? at h
  split at h <;> cases h <;> rfl

/-- Beyond the first plane there are two escapes. -/
theorem pairPoint_halves {n : ℕ} (h : 65536 ≤ n) (hn : n < 1114112) :
    (isHigh (55296 + (n - 65536) / 1024) ∧ isLow (56320 + (n - 65536) % 1024)) ∧
      pairPoint (55296 + (n - 65536) / 1024) (56320 + (n - 65536) % 1024) = n := by
  refine ⟨⟨isHigh_iff.mpr (by omega), isLow_iff.mpr (by omega)⟩, ?_⟩
  unfold pairPoint
  omega

theorem toNat_ofNat_of_lt {n : ℕ} (h : n < 55296) : (Char.ofNat n).toNat = n := by
  rw [Char.ofNat, dif_pos (Or.inl h)]
  rfl

theorem readTextCode_of_printable {n : ℕ} (hn : 32 ≤ n ∧ n ≤ 126) (hquote : n ≠ 34)
    (hslash : n ≠ 92) (rest : List Char) :
    readTextCode (Char.ofNat n :: rest) = some (.ofChar (Char.ofNat n), rest) := by
  have htoNat : (Char.ofNat n).toNat = n := toNat_ofNat_of_lt (by omega)
  have hne : ∀ d : Char, n ≠ d.toNat → Char.ofNat n ≠ d := by
    rintro d hd rfl
    exact hd htoNat.symm
  have hblank : ¬ Char.ofNat n < ' ' := by
    rw [Char.lt_def, UInt32.lt_iff_toNat_lt]
    change ¬ (Char.ofNat n).toNat < 32
    omega
  change (if Char.ofNat n = '\\' then next >>= unescape
    else if Char.ofNat n = '"' ∨ Char.ofNat n < ' ' then fail
    else pure (.ofChar (Char.ofNat n)) : TextReader Char Code) rest = _
  rw [if_neg (hne '\\' hslash), if_neg fun h => h.elim (hne '"' hquote) hblank]
  rfl

/-- **A code point is read back**, unless it is the first one of a pair whose second one
follows. -/
theorem readTextCode_writeCode {c : Code} {rest : List Char}
    (h : isHigh c.point → peekLow rest = none) :
    readTextCode (writeCode c ++ rest) = some (c, rest) := by
  unfold writeCode
  split
  case h_1 d hd =>
    change unescape d rest = _
    rw [unescape_shortEscape hd]
    rfl
  case h_2 hnone =>
    split_ifs with hprint hplane
    · have hcode : Code.ofChar (Char.ofNat c.point) = c :=
        Code.ext (toNat_ofNat_of_lt (by omega))
      have hquote : c.point ≠ 34 := fun heq => by rw [heq] at hnone; cases hnone
      have hslash : c.point ≠ 92 := fun heq => by rw [heq] at hnone; cases hnone
      rw [List.singleton_append, readTextCode_of_printable hprint hquote hslash, hcode]
    · rw [readTextCode_unitEscape hplane]
      exact readUnit_alone h
    · obtain ⟨hpair, hpoint⟩ := pairPoint_halves (not_lt.mp hplane) c.lt
      have hhigh := isHigh_iff.mp hpair.1
      rw [List.append_assoc, readTextCode_unitEscape (by omega), readUnit_pair hpair]
      exact congrArg (fun c => some (c, rest)) (Code.ext hpoint)

/-- A surrogate is written as an escape. -/
theorem writeCode_surrogate {c : Code} (h : 55296 ≤ c.point ∧ c.point < 57344) :
    writeCode c = unitEscape c.point := by
  have hnone : shortEscape? c.point = none := by
    unfold shortEscape?
    split <;> first | omega | rfl
  rw [writeCode, hnone]
  dsimp only
  rw [if_neg (by omega), if_pos (by omega)]

theorem readTextCode_pair {c d : Code} (h : isHigh c.point ∧ isLow d.point) (rest : List Char) :
    readTextCode (writeCode c ++ (writeCode d ++ rest)) =
      some (⟨pairPoint c.point d.point, pairPoint_lt h⟩, rest) := by
  have hc := isHigh_iff.mp h.1
  have hd := isLow_iff.mp h.2
  rw [writeCode_surrogate (by omega), writeCode_surrogate (by omega),
    readTextCode_unitEscape (by omega), readUnit_pair h]

/-- No other code point is the second one of a pair. -/
theorem peekLow_writeCode {d : Code} (h : ¬ isLow d.point) (rest : List Char) :
    peekLow (writeCode d ++ rest) = none := by
  unfold writeCode
  split
  case h_1 e he =>
    unfold shortEscape? at he
    split at he <;> cases he <;> rfl
  case h_2 hnone =>
    split_ifs with hprint hplane
    · have hslash : Char.ofNat d.point ≠ '\\' := fun heq => by
        have htoNat := congrArg Char.toNat heq
        rw [toNat_ofNat_of_lt (by omega)] at htoNat
        rw [htoNat] at hnone
        cases hnone
      rw [List.singleton_append, peekLow]
      intro _ heq
      exact hslash (List.cons.inj heq).1
    · rw [peekLow_unitEscape hplane, if_neg h]
    · obtain ⟨hpair, -⟩ := pairPoint_halves (not_lt.mp hplane) d.lt
      have hhigh := isHigh_iff.mp hpair.1
      refine (congrArg peekLow (List.append_assoc _ _ rest)).trans ?_
      rw [peekLow_unitEscape (by omega), if_neg fun hlow => ?_]
      have hlow := isLow_iff.mp hlow
      omega

theorem writeCode_eq_cons (c : Code) : ∃ d t, writeCode c = d :: t ∧ d ≠ '"' := by
  unfold writeCode
  split
  case h_1 d hd => exact ⟨_, _, rfl, by decide⟩
  case h_2 hnone =>
    split_ifs with hprint
    · refine ⟨_, _, rfl, fun heq => ?_⟩
      have htoNat := congrArg Char.toNat heq
      rw [toNat_ofNat_of_lt (by omega)] at htoNat
      rw [htoNat] at hnone
      cases hnone
    · exact ⟨_, _, rfl, by decide⟩
    · exact ⟨_, _, rfl, by decide⟩

theorem head?_flatMap_writeCode (c : Code) (t : List Char) :
    (writeCode c ++ t).head? ≠ some '"' := by
  obtain ⟨d, t', hc, hd⟩ := writeCode_eq_cons c
  rw [hc]
  exact fun h => hd (Option.some_inj.mp h)

/-- **A text is read back**, its pairs of surrogates joined. -/
theorem itemsUntil_written (s : List Code) (n : ℕ) (rest : List Char) (hn : s.length < n) :
    itemsUntil '"' readTextCode n (s.flatMap writeCode ++ '"' :: rest) = some (join s, rest) := by
  induction s using join.induct generalizing n with
  | case1 c d s hpair ih =>
    obtain ⟨n, rfl⟩ := Nat.exists_eq_add_one.mpr (Nat.zero_lt_of_lt hn)
    rw [List.length_cons, List.length_cons] at hn
    rw [List.flatMap_cons, List.flatMap_cons, List.append_assoc, List.append_assoc,
      itemsUntil_cons (head?_flatMap_writeCode c _) (readTextCode_pair hpair _),
      ih n (by omega), join, dif_pos hpair]
    rfl
  | case2 c d s hpair ih =>
    obtain ⟨n, rfl⟩ := Nat.exists_eq_add_one.mpr (Nat.zero_lt_of_lt hn)
    rw [List.length_cons] at hn
    have hnext : isHigh c.point → peekLow ((d :: s).flatMap writeCode ++ '"' :: rest) = none := by
      intro hhigh
      rw [List.flatMap_cons, List.append_assoc]
      exact peekLow_writeCode (fun hlow => hpair ⟨hhigh, hlow⟩) _
    rw [List.flatMap_cons, List.append_assoc, itemsUntil_cons (head?_flatMap_writeCode c _)
      (readTextCode_writeCode hnext), ih n (by omega), join, dif_neg hpair]
    rfl
  | case3 c =>
    obtain ⟨n, rfl⟩ := Nat.exists_eq_add_one.mpr (Nat.zero_lt_of_lt hn)
    rw [List.length_singleton] at hn
    obtain ⟨n, rfl⟩ := Nat.exists_eq_add_one.mpr (show 0 < n by omega)
    rw [List.flatMap_singleton, itemsUntil_cons (head?_flatMap_writeCode c _)
      (readTextCode_writeCode fun _ => rfl), itemsUntil_stop, join]
    rfl
  | case4 =>
    obtain ⟨n, rfl⟩ := Nat.exists_eq_add_one.mpr hn
    exact itemsUntil_stop n rest

theorem length_le_flatMap_writeCode (s : List Code) : s.length ≤ (s.flatMap writeCode).length := by
  induction s with
  | nil => exact le_rfl
  | cons c s ih =>
    obtain ⟨d, t, hc, -⟩ := writeCode_eq_cons c
    rw [List.flatMap_cons, hc, List.cons_append, List.length_cons, List.length_cons,
      List.length_append]
    exact Nat.succ_le_succ (ih.trans (Nat.le_add_left _ _))

theorem readQuoted_written (s : List Code) :
    Reads readQuoted (s.flatMap writeCode ++ ['"']) (join s) := by
  refine Reads.withLength fun n hn rest => ?_
  have hlength := length_le_flatMap_writeCode s
  rw [List.length_append, List.length_singleton] at hn
  rw [List.append_assoc, List.singleton_append]
  exact itemsUntil_written s n rest (lt_of_lt_of_le (Nat.lt_succ_of_le hlength) hn)

/-! ## Values -/

mutual

/-- The value with the pairs of surrogates in its texts joined. -/
def Tree.join : Tree → Tree
  | .text s => .text (JsonText.join s)
  | .bool b => .bool b
  | .object members => .object (joinMembers members)

def joinMembers : List (List Code × Tree) → List (List Code × Tree)
  | [] => []
  | (key, v) :: members => (JsonText.join key, v.join) :: joinMembers members

end

theorem reads_member {value : TextReader Char Tree} {t : List Char} {v : Tree} (key : List Code)
    (h : Reads value t v) :
    Reads (readMember value) (key.flatMap writeCode ++ ['"'] ++ ':' :: t) (join key, v) := by
  have hvalue : Reads (value >>= fun v => pure (join key, v)) t (join key, v) :=
    h.map (join key, ·)
  refine (readQuoted_written key).bind (Reads.skip (c := ':') (by decide) ?_)
  exact (Reads.symbol ':').bind hvalue

/-- A value after blanks. -/
theorem reads_blanks {n : ℕ} {blanks t : List Char} {v : Tree}
    (hblanks : ∀ c ∈ blanks, isBlank c = true) (h : Reads (readValue n) t v) :
    Reads (readValue n) (blanks ++ t) v := by
  cases n with
  | zero =>
    have hfail := h []
    cases hfail
  | succ n =>
    rw [readValue] at h ⊢
    exact Reads.blanks hblanks h

/-- A value by its first character. -/
theorem reads_value {n : ℕ} {c : Char} {t : List Char} {v : Tree} (hc : isBlank c = false)
    (h : Reads (readRest (readValue n) c) t v) : Reads (readValue (n + 1)) (c :: t) v := by
  rw [readValue]
  exact Reads.skip hc (Reads.next h)

theorem reads_text (s : List Code) (n : ℕ) :
    Reads (readValue (n + 1)) (writeText s) (.text (join s)) :=
  reads_value (c := '"') (by decide) ((readQuoted_written s).map Tree.text)

theorem reads_bool (layout : Layout) (depth : ℕ) (b : Bool) (n : ℕ) :
    Reads (readValue (n + 1)) (dumps layout depth (.bool b)) (.bool b) := by
  cases b with
  | true =>
    rw [dumps]
    exact reads_value (by decide) ((Reads.literal ['r', 'u', 'e']).map fun _ => Tree.bool true)
  | false =>
    rw [dumps]
    exact reads_value (by decide)
      ((Reads.literal ['a', 'l', 's', 'e']).map fun _ => Tree.bool false)

theorem reads_object {n : ℕ} {blanks : List Char} {c : Char} {t : List Char}
    {members : List (List Code × Tree)} (hblanks : ∀ d ∈ blanks, isBlank d = true)
    (hc : isBlank c = false) (h : Reads (readObject (readValue n) c) t members) :
    Reads (readValue (n + 1)) ('\x7b' :: (blanks ++ c :: t)) (.object members) := by
  have hnext : Reads (next >>= readObject (readValue n)) (c :: t) members := Reads.next h
  exact reads_value (c := '\x7b') (by decide)
    (Reads.blanks hblanks (Reads.skip hc (hnext.map Tree.object)))

section Members

variable {layout : Layout} {depth n k : ℕ} {v v' : Tree}
  {members members' : List (List Code × Tree)}

/-- A member and what follows it, the quote of its key taken. -/
theorem reads_members (key : List Code) {more : TextReader Char (List (List Code × Tree))}
    (hv : Reads (readValue n) (dumps layout (depth + 1) v) v')
    (hmore : Reads more (dumpsMembers layout depth (',' :: layout.between depth) members)
      members') :
    Reads (readMember (readValue n) >>= fun member => more >>= fun members =>
        pure (member :: members))
      (key.flatMap writeCode ++ ['"'] ++ (':' :: ' ' :: dumps layout (depth + 1) v) ++
        dumpsMembers layout depth (',' :: layout.between depth) members)
      ((join key, v') :: members') :=
  (reads_member key (reads_blanks (List.forall_mem_singleton.mpr rfl) hv)).bind
    (hmore.map ((join key, v') :: ·))

theorem length_lt_dumpsMembers (layout : Layout) (depth : ℕ) (start : List Char)
    (members : List (List Code × Tree)) :
    members.length < (dumpsMembers layout depth start members).length := by
  induction members generalizing start with
  | nil =>
    rw [dumpsMembers, List.length_append]
    exact Nat.lt_add_left _ Nat.zero_lt_one
  | cons member members ih =>
    have hrest := ih (',' :: layout.between depth)
    rw [dumpsMembers, List.length_append, List.length_append, List.length_append,
      List.length_cons, List.length_cons]
    omega

theorem length_dumpsMembers_cons (layout : Layout) (depth : ℕ) (start : List Char)
    (key : List Code) (v : Tree) (members : List (List Code × Tree)) :
    (dumps layout (depth + 1) v).length + 2 ≤
        (dumpsMembers layout depth start ((key, v) :: members)).length ∧
      (dumpsMembers layout depth (',' :: layout.between depth) members).length + 2 ≤
        (dumpsMembers layout depth start ((key, v) :: members)).length := by
  rw [dumpsMembers, List.length_append, List.length_append, List.length_append, List.length_cons,
    List.length_cons]
  omega

/-- The object with its first member. -/
theorem reads_dumpsObject (key : List Code)
    (hv : Reads (readValue n) (dumps layout (depth + 1) v) v')
    (hmembers : ∀ k, members.length < k → Reads (readMembers (readValue n) k)
      (dumpsMembers layout depth (',' :: layout.between depth) members) members') :
    Reads (readValue (n + 1)) (dumps layout depth (.object ((key, v) :: members)))
      (.object ((join key, v') :: members')) := by
  have hmore : Reads (withLength (readMembers (readValue n)))
      (dumpsMembers layout depth (',' :: layout.between depth) members) members' :=
    Reads.withLength fun k hk =>
      hmembers k ((length_lt_dumpsMembers layout depth _ members).trans_le hk)
  have hread := reads_object (layout.blank_opening depth) (c := '"') (by decide)
    (reads_members key hv hmore)
  rw [dumps, dumpsMembers, writeText]
  simpa only [List.append_assoc, List.cons_append] using hread

/-- Members that follow another one. -/
theorem reads_further (key : List Code) (hv : Reads (readValue n) (dumps layout (depth + 1) v) v')
    (hmembers : Reads (readMembers (readValue n) k)
      (dumpsMembers layout depth (',' :: layout.between depth) members) members') :
    Reads (readMembers (readValue n) (k + 1))
      (dumpsMembers layout depth (',' :: layout.between depth) ((key, v) :: members))
      ((join key, v') :: members') := by
  have hquote : Reads (symbol '"' >>= fun _ => readMember (readValue n) >>= fun member =>
      readMembers (readValue n) k >>= fun members => pure (member :: members))
      ('"' :: (key.flatMap writeCode ++ ['"'] ++ (':' :: ' ' :: dumps layout (depth + 1) v) ++
        dumpsMembers layout depth (',' :: layout.between depth) members))
      ((join key, v') :: members') :=
    (Reads.symbol '"').bind (reads_members key hv hmembers)
  have hcomma : Reads (readFurther (readValue n) (readMembers (readValue n) k) ',') _ _ :=
    Reads.blanks (layout.blank_between depth) (Reads.skip (c := '"') (by decide) hquote)
  have hfront := Reads.skip (f := fun _ => next >>= readFurther _ _) (c := ',')
    (show isBlank ',' = false by decide) (Reads.next hcomma)
  rw [readMembers, dumpsMembers, writeText]
  simpa only [List.append_assoc, List.cons_append, List.nil_append] using hfront

end Members

theorem length_dumps_pos (layout : Layout) (depth : ℕ) (v : Tree) :
    0 < (dumps layout depth v).length := by
  cases v with
  | text s => exact Nat.zero_lt_succ _
  | bool b => cases b <;> exact Nat.zero_lt_succ _
  | object members =>
    cases members with
    | nil => exact Nat.zero_lt_succ _
    | cons member members => exact Nat.zero_lt_succ _

mutual

/-- **A value is read back**, in any layout and whatever follows it. -/
theorem reads_dumps (layout : Layout) (depth : ℕ) (v : Tree) (n : ℕ)
    (hn : (dumps layout depth v).length ≤ n) :
    Reads (readValue n) (dumps layout depth v) v.join := by
  cases n with
  | zero => exact absurd hn (Nat.not_le_of_lt (length_dumps_pos layout depth v))
  | succ n =>
    cases v with
    | text s => exact reads_text s n
    | bool b => exact reads_bool layout depth b n
    | object members =>
      cases members with
      | nil =>
        have hblanks : ∀ c ∈ ([] : List Char), isBlank c = true := fun c h =>
          absurd h List.not_mem_nil
        exact reads_object hblanks (c := '\x7d') (by decide) (Reads.pure [])
      | cons member members =>
        obtain ⟨key, v⟩ := member
        have hparts := length_dumpsMembers_cons layout depth (layout.opening depth) key v members
        rw [dumps, List.length_cons] at hn
        exact reads_dumpsObject key (reads_dumps layout (depth + 1) v n (by omega)) fun k hk =>
          reads_dumpsMembers layout depth members n k (by omega) hk

theorem reads_dumpsMembers (layout : Layout) (depth : ℕ) (members : List (List Code × Tree))
    (n k : ℕ) (hn : (dumpsMembers layout depth (',' :: layout.between depth) members).length ≤ n)
    (hk : members.length < k) :
    Reads (readMembers (readValue n) k)
      (dumpsMembers layout depth (',' :: layout.between depth) members) (joinMembers members) := by
  cases k with
  | zero => exact absurd hk (Nat.not_lt_zero _)
  | succ k =>
    cases members with
    | nil =>
      rw [dumpsMembers, readMembers]
      exact Reads.blanks (layout.blank_closing depth)
        (Reads.skip (c := '\x7d') (by decide) (Reads.next (Reads.pure [])))
    | cons member members =>
      obtain ⟨key, v⟩ := member
      have hparts := length_dumpsMembers_cons layout depth (',' :: layout.between depth) key v
        members
      exact reads_further key (reads_dumps layout (depth + 1) v n (by omega))
        (reads_dumpsMembers layout depth members n k (by omega) (Nat.lt_of_succ_lt_succ hk))

end

theorem reads_readJson (layout : Layout) (v : Tree) : Reads readJson (dumps layout 0 v) v.join :=
  Reads.withLength (reads_dumps layout 0 v)

/-- **A whole text is read back**, with blanks at its end. -/
theorem loads_dumps (layout : Layout) (v : Tree) {blanks : List Char}
    (hblanks : ∀ c ∈ blanks, isBlank c = true) :
    loads (dumps layout 0 v ++ blanks) = some v.join := by
  have hdrop : blanks.dropWhile isBlank = [] := List.dropWhile_eq_nil_iff.mpr hblanks
  have hrun : (do
      let v ← readJson
      skip isBlank
      pure v : TextReader Char Tree) (dumps layout 0 v ++ blanks) = some (v.join, []) := by
    rw [run_bind, reads_readJson layout v blanks]
    change some (v.join, blanks.dropWhile isBlank) = _
    rw [hdrop]
  rw [loads, readWhole, hrun]

/-! ## Printable text -/

/-- The text is printable ASCII, on one line. -/
def isPrintable (t : List Char) : Bool := t.all fun c => ' ' ≤ c ∧ c ≤ '~'

theorem isPrintable_append {s t : List Char} (hs : isPrintable s) (ht : isPrintable t) :
    isPrintable (s ++ t) := by
  rw [isPrintable, List.all_append, Bool.and_eq_true]
  exact ⟨hs, ht⟩

theorem isPrintable_cons {c : Char} {t : List Char} (hc : isPrintable [c]) (ht : isPrintable t) :
    isPrintable (c :: t) :=
  isPrintable_append hc ht

theorem isPrintable_digitChar {n : ℕ} (h : n < 16) : isPrintable [Nat.digitChar n] := by
  interval_cases n <;> decide

theorem isPrintable_unitEscape (n : ℕ) : isPrintable (unitEscape n) := by
  have hdigit : ∀ m, isPrintable [Nat.digitChar (m % 16)] := fun m =>
    isPrintable_digitChar (Nat.mod_lt m (by decide))
  exact isPrintable_cons (by decide) (isPrintable_cons (by decide)
    (isPrintable_cons (hdigit (n / 4096)) (isPrintable_cons (hdigit (n / 256))
      (isPrintable_cons (hdigit (n / 16)) (hdigit n)))))

theorem isPrintable_writeCode (c : Code) : isPrintable (writeCode c) := by
  unfold writeCode
  split
  case h_1 d hd =>
    unfold shortEscape? at hd
    split at hd <;> cases hd <;> decide
  case h_2 hnone =>
    split_ifs with hprint
    · have htoNat : (Char.ofNat c.point).toNat = c.point := toNat_ofNat_of_lt (by omega)
      rw [isPrintable, List.all_cons, List.all_nil, Bool.and_true, decide_eq_true_eq, Char.le_def,
        Char.le_def, UInt32.le_iff_toNat_le, UInt32.le_iff_toNat_le]
      change 32 ≤ (Char.ofNat c.point).toNat ∧ (Char.ofNat c.point).toNat ≤ 126
      rwa [htoNat]
    · exact isPrintable_unitEscape _
    · exact isPrintable_append (isPrintable_unitEscape _) (isPrintable_unitEscape _)

theorem isPrintable_writeText (s : List Code) : isPrintable (writeText s) := by
  have hbody : isPrintable (s.flatMap writeCode) := by
    induction s with
    | nil => rfl
    | cons c s ih =>
      rw [List.flatMap_cons]
      exact isPrintable_append (isPrintable_writeCode c) ih
  exact isPrintable_append (isPrintable_cons (by decide) hbody) (by decide)

mutual

/-- **What is written on one line is printable ASCII.** -/
theorem isPrintable_dumps (depth : ℕ) (v : Tree) : isPrintable (dumps oneLine depth v) := by
  cases v with
  | text s => exact isPrintable_writeText s
  | bool b => cases b <;> rfl
  | object members =>
    cases members with
    | nil => rfl
    | cons member members =>
      rw [dumps]
      exact isPrintable_cons (by decide) (isPrintable_dumpsMembers depth [] rfl (member :: members))

theorem isPrintable_dumpsMembers (depth : ℕ) (start : List Char) (hstart : isPrintable start)
    (members : List (List Code × Tree)) :
    isPrintable (dumpsMembers oneLine depth start members) := by
  cases members with
  | nil => exact isPrintable_append (s := []) rfl (by decide)
  | cons member members =>
    rw [dumpsMembers]
    exact isPrintable_append hstart (isPrintable_append (isPrintable_writeText member.1)
      (isPrintable_append (isPrintable_cons (by decide) (isPrintable_cons (by decide)
        (isPrintable_dumps (depth + 1) member.2)))
        (isPrintable_dumpsMembers depth _ rfl members)))

end

theorem newline_notMem_of_isPrintable {t : List Char} (h : isPrintable t) : '\n' ∉ t := fun hmem =>
  absurd (List.all_eq_true.mp h '\n' hmem) (by decide)

end JsonText

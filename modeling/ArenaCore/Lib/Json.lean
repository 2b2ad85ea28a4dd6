import Mathlib.Data.Nat.Digits.Defs
import Mathlib.Tactic.Common

/-!
# JSON Text

The text `JSON.stringify` produces, its length in bytes, and what can be read
back from it. A byte limit on serialised data is a statement about escaping: a
quote or a newline costs two bytes once it is inside a string, and a control
character costs six. Escaping is also what makes the text of an array of
strings say where each string ends. Numbers are integers here; the serialised
records this is used for hold no others. They are printed as doubles, so no number is long: plain
digits up to twenty-one of them, then an exponent, and `null` past the largest
double.

## Main definitions

* `Json`: A JSON tree with integer numbers.
* `Json.stringify`: The compact text of a tree.
* `byteLength`: The length of a text in UTF-8.

## Theorems

* `escape_utf8Size_le`, `byteLength_quote_le`: What escaping can cost.
* `byteLength_stringifyFields_le`, `byteLength_stringifyItems_le`: The text of an
  object or an array, member by member.
* `stringify_texts_inj`: The text of an array of strings determines them.
-/

/-- A JSON tree whose numbers are integers. -/
inductive Json where
  | null
  | bool (b : Bool)
  | num (n : Int)
  | str (s : String)
  | arr (items : List Json)
  | obj (fields : List (String × Json))

namespace Json

/-- One hexadecimal digit. -/
def hexDigit (n : Nat) : Char :=
  if n < 10 then Char.ofNat (48 + n) else Char.ofNat (87 + n)

/-- The characters a string literal spends on one character. -/
def escape (c : Char) : List Char :=
  if c = '"' then ['\\', '"']
  else if c = '\\' then ['\\', '\\']
  else if c = '\n' then ['\\', 'n']
  else if c = '\r' then ['\\', 'r']
  else if c = '\t' then ['\\', 't']
  else if c.toNat = 8 then ['\\', 'b']
  else if c.toNat = 12 then ['\\', 'f']
  else if c.toNat < 32 then
    ['\\', 'u', '0', '0', hexDigit (c.toNat / 16), hexDigit (c.toNat % 16)]
  else [c]

/-- A quoted string literal. -/
def quote (s : String) : String :=
  "\"" ++ String.ofList (s.toList.flatMap escape) ++ "\""

/-- The text of a number. Digits past the seventeenth are dropped, where a
    double would round them. -/
def number (n : Int) : String :=
  if n.natAbs < 10 ^ 21 then toString n
  else
    let digits := (toString n.natAbs).toList
    if digits.length ≤ 309 then
      (if n < 0 then "-" else "") ++ String.ofList (digits.take 1) ++ "." ++
        String.ofList ((digits.drop 1).take 16) ++ "e+" ++ toString (digits.length - 1)
    else "null"

mutual

/-- The compact text of a tree, without any white space. -/
def stringify : Json → String
  | .null => "null"
  | .bool true => "true"
  | .bool false => "false"
  | .num n => number n
  | .str s => quote s
  | .arr items => "[" ++ stringifyItems items ++ "]"
  | .obj fields => "\x7b" ++ stringifyFields fields ++ "\x7d"

/-- The items of an array, separated by commas. -/
def stringifyItems : List Json → String
  | [] => ""
  | [item] => stringify item
  | item :: rest => stringify item ++ "," ++ stringifyItems rest

/-- The members of an object, separated by commas. -/
def stringifyFields : List (String × Json) → String
  | [] => ""
  | [(name, value)] => quote name ++ ":" ++ stringify value
  | (name, value) :: rest => quote name ++ ":" ++ stringify value ++ "," ++ stringifyFields rest

end

/-- The member of an object, the last one if there are several. -/
def member? (name : String) : Json → Option Json
  | .obj fields => (fields.reverse.find? fun f => f.1 == name).map Prod.snd
  | _ => none

/-- The text of a string. -/
def str? : Json → Option String
  | .str s => some s
  | _ => none

def bool? : Json → Option Bool
  | .bool b => some b
  | _ => none

def num? : Json → Option Int
  | .num n => some n
  | _ => none

/-- The items of an array. -/
def items? : Json → Option (List Json)
  | .arr items => some items
  | _ => none

def isNull : Json → Bool
  | .null => true
  | _ => false

/-- The member an optional field contributes: none when it is absent. -/
def optional {α : Type} (name : String) (encode : α → Json) : Option α → List (String × Json)
  | none => []
  | some a => [(name, encode a)]

end Json

/-- The number of bytes a text takes in UTF-8. -/
def byteLength (s : String) : Nat :=
  s.utf8ByteSize

@[simp] theorem byteLength_append (s t : String) :
    byteLength (s ++ t) = byteLength s + byteLength t :=
  String.utf8ByteSize_append

theorem byteLength_ofList (cs : List Char) :
    byteLength (String.ofList cs) = (cs.map Char.utf8Size).sum := by
  induction cs with
  | nil => rfl
  | cons c rest ih =>
      have hcons : String.ofList (c :: rest) = String.singleton c ++ String.ofList rest := by
        simp only [String.ofList_cons]
      rw [hcons, byteLength_append, ih, List.map_cons, List.sum_cons]
      simp only [byteLength, String.utf8ByteSize_singleton]

/-- A character takes at most four bytes. -/
theorem byteLength_le (s : String) : byteLength s ≤ 4 * s.toList.length := by
  have hsum : ∀ cs : List Char, (cs.map Char.utf8Size).sum ≤ 4 * cs.length := by
    intro cs
    induction cs with
    | nil => exact Nat.le_refl 0
    | cons c rest ih =>
        have hc := Char.utf8Size_le_four c
        simp only [List.map_cons, List.sum_cons, List.length_cons]
        omega
  have hs := hsum s.toList
  rwa [← byteLength_ofList, String.ofList_toList] at hs

namespace Json

theorem escape_length_le (c : Char) : (escape c).length ≤ 6 := by
  unfold escape
  repeat' split
  all_goals simp only [List.length_cons, List.length_nil, Nat.reduceAdd, Nat.reduceLeDiff]

/-- Only characters of one byte are escaped, so a byte becomes six at most. -/
theorem escape_utf8Size_le (c : Char) :
    ((escape c).map Char.utf8Size).sum ≤ 6 * c.utf8Size := by
  have hpos := Char.utf8Size_pos c
  have hhex : ∀ n : Fin 16, (hexDigit n).utf8Size = 1 := by decide
  unfold escape
  split_ifs with hq hb hn hr ht h8 h12 hcontrol
  iterate 7 exact Nat.le_trans (by decide) (Nat.mul_le_mul_left 6 hpos)
  · have hhigh := hhex ⟨c.toNat / 16, by omega⟩
    have hlow := hhex ⟨c.toNat % 16, by omega⟩
    simp only [List.map_cons, List.map_nil, List.sum_cons, List.sum_nil, hhigh, hlow]
    have hascii : '\\'.utf8Size = 1 ∧ 'u'.utf8Size = 1 ∧ '0'.utf8Size = 1 := by decide
    omega
  · simp only [List.map_cons, List.map_nil, List.sum_cons, List.sum_nil]
    omega

/-- Escaping makes a character at most six, and quoting adds two. -/
theorem byteLength_quote_le (s : String) : byteLength (quote s) ≤ 24 * s.toList.length + 2 := by
  have hflat : (s.toList.flatMap escape).length ≤ 6 * s.toList.length := by
    induction s.toList with
    | nil => exact Nat.le_refl 0
    | cons c rest ih =>
        have hc := escape_length_le c
        simp only [List.flatMap_cons, List.length_append, List.length_cons]
        omega
  have hbody := byteLength_le (String.ofList (s.toList.flatMap escape))
  rw [String.toList_ofList] at hbody
  have hquote : byteLength "\"" = 1 := by decide
  simp only [quote, byteLength_append, hquote]
  omega

/-- No number is longer than a hundred bytes. -/
theorem byteLength_number_le (n : Int) : byteLength (number n) ≤ 100 := by
  have hrepr : ∀ m e : Nat, 0 < e → m < 10 ^ e → byteLength (toString m) ≤ 4 * e := by
    intro m e he hm
    have hlen := Nat.repr_length m e he hm
    rw [← String.length_toList] at hlen
    exact Nat.le_trans (byteLength_le _) (Nat.mul_le_mul_left 4 hlen)
  unfold number
  split
  · rename_i hsmall
    cases n with
    | ofNat m => exact Nat.le_trans (hrepr m 21 (by decide) hsmall) (by decide)
    | negSucc m =>
        have hm := hrepr (m + 1) 21 (by decide) hsmall
        have hminus : byteLength "-" = 1 := by decide
        change byteLength ("-" ++ toString (m + 1)) ≤ 100
        rw [byteLength_append, hminus]
        omega
  · dsimp only
    split
    · rename_i hdigits
      have hsign : byteLength (if n < 0 then "-" else "") ≤ 1 := by split <;> decide
      have hone := byteLength_le (String.ofList ((toString n.natAbs).toList.take 1))
      have hmantissa := byteLength_le (String.ofList (((toString n.natAbs).toList.drop 1).take 16))
      rw [String.toList_ofList] at hone hmantissa
      have hexp := hrepr ((toString n.natAbs).toList.length - 1) 3 (by decide) (by omega)
      have htake := List.length_take_le 1 (toString n.natAbs).toList
      have htake' := List.length_take_le 16 ((toString n.natAbs).toList.drop 1)
      have hdot : byteLength "." = 1 := by decide
      have he : byteLength "e+" = 2 := by decide
      simp only [byteLength_append, hdot, he]
      omega
    · decide

/-- The members of an object cost what their names and values do, and two
    bytes each for the colon and the comma. -/
theorem byteLength_stringifyFields_le (fields : List (String × Json)) :
    byteLength (stringifyFields fields)
      ≤ (fields.map fun f => byteLength (quote f.1) + byteLength (stringify f.2) + 2).sum := by
  have hcolon : byteLength ":" = 1 := by decide
  have hcomma : byteLength "," = 1 := by decide
  induction fields with
  | nil => exact Nat.le_refl 0
  | cons f rest ih =>
      rcases f with ⟨name, value⟩
      cases rest with
      | nil =>
          simp only [stringifyFields, byteLength_append, hcolon, List.map_cons, List.map_nil,
            List.sum_cons, List.sum_nil]
          omega
      | cons f' rest =>
          simp only [stringifyFields, byteLength_append, hcolon, hcomma, List.map_cons,
            List.sum_cons] at ih ⊢
          omega

/-- What a member costs in the text of its object. -/
def memberLength (f : String × Json) : Nat :=
  byteLength (quote f.1) + byteLength (stringify f.2) + 2

/-- An optional member costs what it would if it were there. -/
theorem sum_optional_le {α : Type} (name : String) (encode : α → Json) (a : Option α) {bound : Nat}
    (h : ∀ a, byteLength (encode a).stringify ≤ bound) :
    ((optional name encode a).map memberLength).sum ≤ byteLength (quote name) + bound + 2 := by
  cases a with
  | none => exact Nat.zero_le _
  | some a =>
      have ha := h a
      simp only [optional, List.map_cons, List.map_nil, List.sum_cons, List.sum_nil, memberLength]
      omega

theorem byteLength_stringify_obj_le (fields : List (String × Json)) :
    byteLength (Json.obj fields).stringify ≤ (fields.map memberLength).sum + 2 := by
  have hbraces : byteLength "\x7b" = 1 ∧ byteLength "\x7d" = 1 := by decide
  have hfields : byteLength (stringifyFields fields) ≤ (fields.map memberLength).sum :=
    byteLength_stringifyFields_le fields
  simp only [stringify, byteLength_append]
  omega

/-- The items of an array cost a comma each at most. -/
theorem byteLength_stringifyItems_le (items : List Json) :
    byteLength (stringifyItems items)
      ≤ (items.map fun item => byteLength (stringify item) + 1).sum := by
  have hcomma : byteLength "," = 1 := by decide
  induction items with
  | nil => exact Nat.le_refl 0
  | cons item rest ih =>
      cases rest with
      | nil =>
          simp only [stringifyItems, List.map_cons, List.map_nil, List.sum_cons, List.sum_nil]
          omega
      | cons item' rest =>
          simp only [stringifyItems, byteLength_append, hcomma, List.map_cons,
            List.sum_cons] at ih ⊢
          omega

end Json

/-- An object's text has at least its two braces. -/
theorem byteLength_stringify_obj_pos (fields : List (String × Json)) :
    0 < byteLength (Json.obj fields).stringify := by
  simp only [byteLength, Json.stringify, String.utf8ByteSize_append]
  have hbrace : 0 < "\x7b".utf8ByteSize := by decide
  omega

namespace Json

variable {rest rest' : List Char}

/-! ### Reading strings back -/

/-- The value of a hexadecimal digit. -/
def hexValue (c : Char) : Nat :=
  if c.toNat < 97 then c.toNat - 48 else c.toNat - 87

/-- The character a literal starts with, and the rest of the literal. -/
def unescape : List Char → Option (Char × List Char)
  | '\\' :: '"' :: rest => some ('"', rest)
  | '\\' :: '\\' :: rest => some ('\\', rest)
  | '\\' :: 'n' :: rest => some ('\n', rest)
  | '\\' :: 'r' :: rest => some ('\r', rest)
  | '\\' :: 't' :: rest => some ('\t', rest)
  | '\\' :: 'b' :: rest => some (Char.ofNat 8, rest)
  | '\\' :: 'f' :: rest => some (Char.ofNat 12, rest)
  | '\\' :: 'u' :: '0' :: '0' :: high :: low :: rest =>
      some (Char.ofNat (16 * hexValue high + hexValue low), rest)
  | c :: rest => some (c, rest)
  | [] => none

theorem hexValue_hexDigit {n : Nat} (hn : n < 16) : hexValue (hexDigit n) = n := by
  have hall : ∀ m : Fin 16, hexValue (hexDigit m) = m := by decide
  exact hall ⟨n, hn⟩

/-- An escaped character can be read back, whatever follows it. -/
theorem unescape_escape (c : Char) (rest : List Char) :
    unescape (escape c ++ rest) = some (c, rest) := by
  unfold escape
  split_ifs with hquote hbackslash hn hr ht hb hf hcontrol
  · rw [hquote]; rfl
  · rw [hbackslash]; rfl
  · rw [hn]; rfl
  · rw [hr]; rfl
  · rw [ht]; rfl
  · rw [← Char.ofNat_toNat c, hb]; rfl
  · rw [← Char.ofNat_toNat c, hf]; rfl
  · have hhigh := hexValue_hexDigit (n := c.toNat / 16) (by omega)
    have hlow := hexValue_hexDigit (n := c.toNat % 16) (by omega)
    simp only [List.cons_append, List.nil_append, unescape, hhigh, hlow, Nat.div_add_mod,
      Char.ofNat_toNat]
  · rw [List.singleton_append, unescape]
    all_goals simp [hbackslash]

/-- No escaped character starts with a quote. -/
theorem head_escape_ne (c : Char) (rest rest' : List Char) :
    escape c ++ rest ≠ '"' :: rest' := by
  unfold escape
  split_ifs with hquote <;> simp
  exact fun h => absurd h hquote

/-- Up to its closing quote, a literal says which string it is of. -/
theorem quoted_inj (cs : List Char) :
    ∀ cs' rest rest', cs.flatMap escape ++ '"' :: rest = cs'.flatMap escape ++ '"' :: rest' →
      cs = cs' ∧ rest = rest' := by
  induction cs with
  | nil =>
      intro cs' rest rest' h
      cases cs' with
      | nil => exact ⟨rfl, (List.cons.inj h).2⟩
      | cons c' cs' =>
          rw [List.flatMap_cons, List.append_assoc] at h
          exact absurd h.symm (head_escape_ne c' _ _)
  | cons c cs ih =>
      intro cs' rest rest' h
      rw [List.flatMap_cons, List.append_assoc] at h
      cases cs' with
      | nil => exact absurd h (head_escape_ne c _ _)
      | cons c' cs' =>
          rw [List.flatMap_cons, List.append_assoc] at h
          have hread := congrArg unescape h
          rw [unescape_escape, unescape_escape, Option.some.injEq, Prod.mk.injEq] at hread
          obtain ⟨rfl, htail⟩ := hread
          obtain ⟨rfl, hrest⟩ := ih cs' rest rest' htail
          exact ⟨rfl, hrest⟩

theorem toList_quote (s : String) :
    (quote s).toList = '"' :: (s.toList.flatMap escape ++ ['"']) := by
  simp [quote]

theorem quote_append_inj {s s' : String} (h : (quote s).toList ++ rest = (quote s').toList ++ rest') :
    s = s' ∧ rest = rest' := by
  rw [toList_quote, toList_quote, List.cons_append, List.cons_append, List.append_assoc,
    List.append_assoc] at h
  obtain ⟨hs, hrest⟩ := quoted_inj _ _ _ _ (List.cons.inj h).2
  exact ⟨String.toList_inj.1 hs, hrest⟩

/-- A string or its absence. -/
def text : Option String → Json
  | none => null
  | some s => str s

theorem text_append_inj {a a' : Option String}
    (h : (stringify (text a)).toList ++ rest = (stringify (text a')).toList ++ rest') :
    a = a' ∧ rest = rest' := by
  cases a <;> cases a' <;> simp only [text, stringify] at h
  · exact ⟨rfl, List.append_cancel_left h⟩
  · rw [toList_quote] at h
    simp at h
  · rw [toList_quote] at h
    simp at h
  · obtain ⟨hs, hrest⟩ := quote_append_inj h
    exact ⟨congrArg some hs, hrest⟩

/-- The text of an item is not a closing bracket. -/
theorem text_ne_bracket (a : Option String) (rest rest' : List Char) :
    (stringify (text a)).toList ++ rest ≠ ']' :: rest' := by
  cases a <;> simp [text, stringify, toList_quote]

theorem toList_stringifyItems_cons (a b : Option String) (texts : List (Option String)) :
    (stringifyItems ((a :: b :: texts).map text)).toList
      = (stringify (text a)).toList ++ ',' :: (stringifyItems ((b :: texts).map text)).toList := by
  simp [stringifyItems]

/-- Up to its closing bracket, the text of an array says what its items are. -/
theorem stringifyItems_inj (texts : List (Option String)) :
    ∀ texts' rest rest', (stringifyItems (texts.map text)).toList ++ ']' :: rest
        = (stringifyItems (texts'.map text)).toList ++ ']' :: rest' → texts = texts' := by
  -- The texts of any items start with that of the first one.
  have hfirst : ∀ (a : Option String) (l : List (Option String)) (rest : List Char),
      ∃ rest', (stringifyItems ((a :: l).map text)).toList ++ rest
        = (stringify (text a)).toList ++ rest' := by
    intro a l rest
    cases l with
    | nil => exact ⟨rest, rfl⟩
    | cons b l => exact ⟨_, by rw [toList_stringifyItems_cons, List.append_assoc]⟩
  induction texts with
  | nil =>
      intro texts' rest rest' h
      cases texts' with
      | nil => rfl
      | cons a' l' =>
          obtain ⟨rest'', hl'⟩ := hfirst a' l' (']' :: rest')
          rw [hl'] at h
          exact absurd h.symm (text_ne_bracket a' _ _)
  | cons a l ih =>
      intro texts' rest rest' h
      cases texts' with
      | nil =>
          obtain ⟨rest'', hl⟩ := hfirst a l (']' :: rest)
          rw [hl] at h
          exact absurd h (text_ne_bracket a _ _)
      | cons a' l' =>
          cases l with
          | nil =>
              cases l' with
              | nil => rw [(text_append_inj h).1]
              | cons b' l' =>
                  rw [toList_stringifyItems_cons, List.append_assoc] at h
                  cases (text_append_inj h).2
          | cons b l =>
              rw [toList_stringifyItems_cons, List.append_assoc] at h
              cases l' with
              | nil => cases (text_append_inj h).2
              | cons b' l' =>
                  rw [toList_stringifyItems_cons, List.append_assoc] at h
                  obtain ⟨rfl, htail⟩ := text_append_inj h
                  rw [ih _ _ _ (List.cons.inj htail).2]

theorem stringify_texts_inj {texts texts' : List (Option String)}
    (h : stringify (arr (texts.map text)) = stringify (arr (texts'.map text))) :
    texts = texts' := by
  have hlist := congrArg String.toList h
  simp only [stringify, String.toList_append] at hlist
  exact stringifyItems_inj texts texts' [] [] (List.cons.inj hlist).2

end Json

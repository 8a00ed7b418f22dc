/-
Module: SourceAudit.Proofs.Console.Parentheses
Layer: Proofs
Purpose: The parenthesis that closes a call, byte by byte. What lies outside string literals is told by
  a machine of three states. The closing parenthesis is the first place behind the opening one up to
  which as many parentheses outside literals open as close; the count of open ones has a value at each
  step of the scan, also where a literal never ends. The scan over characters finds the same place,
  because no byte of a character beyond ASCII is a quotation mark, a backslash or a parenthesis.
Main exports: Quoting, outside, BalancedAt, closingByte, closingByteFrom_eq, closingByteFrom_bytes,
  closingParen_matches
-/
import SourceAudit.Fix.Console
import SourceAudit.Proofs.Text.Bytes
import SourceAudit.Proofs.Text.Depth
import Mathlib.Order.Bounds.Defs

namespace SourceAudit.Fix.Console

open Text

/-! ### String literals -/

/-- The bytes that open a string literal, and that close the one they have opened. -/
def isMark (b : UInt8) : Bool := b == '\''.toUInt8 || b == '"'.toUInt8 || b == '`'.toUInt8

/-- Where a byte stands: in the code, in a literal behind this mark, or behind a backslash there. -/
inductive Quoting where
  | code
  | literal (mark : UInt8)
  | escaped (mark : UInt8)
deriving DecidableEq, Repr

/-- What a byte leads to. -/
def Quoting.next : Quoting → UInt8 → Quoting
  | .code, b => if isMark b then .literal b else .code
  | .literal mark, b => if b = '\\'.toUInt8 then .escaped mark else if b = mark then .code else .literal mark
  | .escaped mark, _ => .literal mark

/-- Whether a byte belongs to the code; marks belong to their literals. -/
def Quoting.shows : Quoting → UInt8 → Bool
  | .code, b => !isMark b
  | _, _ => false

/-- The bytes outside string literals. -/
def outside (s : Quoting) : List UInt8 → List UInt8
  | [] => []
  | b :: bs => if s.shows b then b :: outside (s.next b) bs else outside (s.next b) bs

/-- Up to a place behind the opening one, as many parentheses outside literals open as close. -/
def BalancedAt (bs : List UInt8) (opening i : Nat) : Prop :=
  opening < i ∧ i < bs.length ∧
    (outside .code ((bs.take (i + 1)).drop opening)).count '('.toUInt8 =
      (outside .code ((bs.take (i + 1)).drop opening)).count ')'.toUInt8

/-! ### The scan over bytes -/

/-- The scan for the closing parenthesis, byte by byte, with a count of open ones that has no value below
    zero: there the scan has no result. Behind a backslash in a literal it goes on two bytes further,
    which may be behind the end. -/
def closingByteFrom (quote : Option UInt8) (depth index : Nat) : List UInt8 → Option (Option Nat)
  | [] => some none
  | b :: bs =>
    match quote with
    | some mark =>
      if b = '\\'.toUInt8 then
        match bs with
        | [] => some none
        | _ :: rest => closingByteFrom (some mark) depth (index + 2) rest
      else closingByteFrom (if b = mark then none else some mark) depth (index + 1) bs
    | none =>
      if isMark b then closingByteFrom (some b) depth (index + 1) bs
      else if b = '('.toUInt8 then closingByteFrom none (depth + 1) (index + 1) bs
      else if b = ')'.toUInt8 then
        match depth.ppred with
        | none => none
        | some depth => if depth = 0 then some (some index) else closingByteFrom none depth (index + 1) bs
      else closingByteFrom none depth (index + 1) bs

/-- The scan from an opening parenthesis on. -/
def closingByte (bs : List UInt8) (opening : Nat) : Option (Option Nat) :=
  closingByteFrom none 0 opening (bs.drop opening)

/-! ### Places of balance -/

/-- By how much a byte changes the count of open parentheses. -/
def Quoting.change (s : Quoting) (b : UInt8) : Int :=
  if s.shows b then turn '('.toUInt8 ')'.toUInt8 b else 0

/-- The changes along a row of bytes. -/
def changes (s : Quoting) : List UInt8 → List Int
  | [] => []
  | b :: bs => s.change b :: changes (s.next b) bs

section

variable {s : Quoting} {b : UInt8} {bs : List UInt8} {n : Nat}

theorem sum_changes (s : Quoting) (bs : List UInt8) : (changes s bs).sum =
    ((outside s bs).count '('.toUInt8 : Int) - (outside s bs).count ')'.toUInt8 := by
  rw [← sum_turns (by decide)]
  induction bs generalizing s with
  | nil => rfl
  | cons b bs ih =>
    rw [changes, List.sum_cons, ih, outside, Quoting.change]
    split
    · rw [List.map_cons, List.sum_cons]
    · exact Int.zero_add _

theorem take_changes (s : Quoting) (bs : List UInt8) (n : Nat) :
    (changes s bs).take n = changes s (bs.take n) := by
  induction bs generalizing s n with
  | nil => rw [List.take_nil, changes, List.take_nil]
  | cons b bs ih =>
    cases n with
    | zero => rfl
    | succ n => rw [changes, List.take_succ_cons, ih, List.take_succ_cons, changes]

theorem length_changes (s : Quoting) (bs : List UInt8) : (changes s bs).length = bs.length := by
  induction bs generalizing s with
  | nil => rfl
  | cons b bs ih => rw [changes, List.length_cons, ih, List.length_cons]

theorem neg_one_le_of_mem_changes : ∀ x ∈ changes s bs, -1 ≤ x := by
  induction bs generalizing s with
  | nil => exact fun x mem => nomatch mem
  | cons b bs ih =>
    refine List.forall_mem_cons.2 ⟨?_, ih⟩
    rw [Quoting.change]
    split
    · exact neg_one_le_turn _ _ b
    · decide

/-- The count falls at closing parentheses only. -/
theorem getElem?_of_changes (falls : (changes s bs)[n]? = some (-1)) : bs[n]? = some ')'.toUInt8 := by
  induction bs generalizing s n with
  | nil => cases falls
  | cons b bs ih =>
    cases n with
    | zero =>
      have here : s.change b = -1 := Option.some.inj falls
      rw [Quoting.change] at here
      split at here
      · rw [List.getElem?_cons_zero, eq_closing_of_turn here]
      · cases here
    | succ n => exact ih falls

end

/-! ### The scan finds the first place of balance -/

/-- Where a byte stands behind this mark, or behind none. -/
def Quoting.behind : Option UInt8 → Quoting
  | none => .code
  | some mark => .literal mark

theorem firstZero_changes_cons {s : Quoting} {b : UInt8} {bs : List UInt8} {depth d : Nat} (index : Nat)
    (step : (d : Int) = depth + s.change b) (inside : 0 < d) :
    (firstZero depth (changes s (b :: bs))).map (index + ·) =
      (firstZero d (changes (s.next b) bs)).map (index + 1 + ·) := by
  rw [changes, map_firstZero_cons (by omega), ← step]

/-- As long as a parenthesis is open, the count has a value, and the scan stops where it is zero for the
    first time. -/
theorem closingByteFrom_eq {quote : Option UInt8} {depth index : Nat} {bs : List UInt8} (inside : 0 < depth) :
    closingByteFrom quote depth index bs =
      some ((firstZero depth (changes (.behind quote) bs)).map (index + ·)) := by
  fun_induction closingByteFrom quote depth index bs with
  | case1 => rfl
  | case2 depth index mark =>
    rw [firstZero_changes_cons index (d := depth) (Int.add_zero _).symm inside]
    rfl
  | case3 depth index mark y rest ih =>
    rw [ih inside, firstZero_changes_cons index (d := depth) (Int.add_zero _).symm inside,
      firstZero_changes_cons (index + 1) (d := depth) (Int.add_zero _).symm inside]
    rfl
  | case4 depth index b bs mark plain ih =>
    have next : (Quoting.literal mark).next b = .behind (if b = mark then none else some mark) := by
      rw [Quoting.next, if_neg plain]
      split <;> rfl
    rw [ih inside, ← next, ← firstZero_changes_cons index (Int.add_zero _).symm inside]
    rfl
  | case5 depth index b bs mark ih =>
    have change : Quoting.code.change b = 0 := if_neg (by simp [Quoting.shows, mark])
    have next : Quoting.code.next b = .behind (some b) := if_pos mark
    rw [ih inside, ← next, ← firstZero_changes_cons index (by rw [change, Int.add_zero]) inside]
    rfl
  | case6 depth index bs notMark ih =>
    rw [ih (Nat.succ_pos _), Quoting.behind,
      firstZero_changes_cons index (d := depth + 1) (Int.natCast_succ depth) (Nat.succ_pos _)]
    rfl
  | case7 depth index bs underflow =>
    exact absurd (Nat.ppred_eq_none.1 underflow) inside.ne'
  | case8 depth index bs notMark notOpening last =>
    obtain rfl : 1 = depth := Nat.ppred_eq_some.1 last
    rw [changes, firstZero_cons, if_pos (by rfl)]
    rfl
  | case9 depth index bs outer lowered more notMark notOpening ih =>
    obtain rfl : outer + 1 = depth := Nat.ppred_eq_some.1 lowered
    have step : (outer : Int) = (outer + 1 : Nat) + Quoting.code.change ')'.toUInt8 := by
      rw [show Quoting.code.change ')'.toUInt8 = -1 from rfl]
      omega
    rw [ih (by omega), Quoting.behind, firstZero_changes_cons index step (by omega)]
    rfl
  | case10 depth index b bs notMark notOpening notClosing ih =>
    have change : Quoting.code.change b = 0 := by
      rw [Quoting.change, turn_other notOpening notClosing, ite_self]
    have next : Quoting.code.next b = .code := if_neg notMark
    rw [ih inside, Quoting.behind,
      firstZero_changes_cons index (d := depth) (by rw [change, Int.add_zero]) inside, next]

section

variable {bs rest : List UInt8} {opening : Nat}

/-- The places of balance are those where the count is zero. -/
theorem balancedAt_iff (here : bs.drop opening = '('.toUInt8 :: rest) {i : Nat} : BalancedAt bs opening i ↔
    ∃ n < rest.length, i = opening + 1 + n ∧ 1 + ((changes .code rest).take (n + 1)).sum = 0 := by
  have length : bs.length - opening = rest.length + 1 := by
    rw [← List.length_drop, here, List.length_cons]
  have front (n : Nat) : outside .code ((bs.take (opening + 1 + n + 1)).drop opening) =
      '('.toUInt8 :: outside .code (rest.take (n + 1)) := by
    rw [List.drop_take, here, show opening + 1 + n + 1 - opening = n + 1 + 1 by omega, List.take_succ_cons]
    rfl
  have equal (n : Nat) : 1 + ((changes .code rest).take (n + 1)).sum = 0 ↔
      (outside .code ((bs.take (opening + 1 + n + 1)).drop opening)).count '('.toUInt8 =
        (outside .code ((bs.take (opening + 1 + n + 1)).drop opening)).count ')'.toUInt8 := by
    rw [front, take_changes, sum_changes, List.count_cons_self, List.count_cons_of_ne (by decide)]
    omega
  constructor
  · rintro ⟨behind, within, balanced⟩
    obtain ⟨n, rfl⟩ := Nat.exists_eq_add_of_le behind
    exact ⟨n, by omega, rfl, (equal n).2 balanced⟩
  · rintro ⟨n, within, rfl, zero⟩
    exact ⟨by omega, by omega, (equal n).1 zero⟩

theorem closingByte_eq (here : bs.drop opening = '('.toUInt8 :: rest) : closingByte bs opening =
    some ((firstZero 1 (changes .code rest)).map (opening + 1 + ·)) := by
  rw [closingByte, here, closingByteFrom, if_neg (by decide), if_pos rfl]
  exact closingByteFrom_eq Nat.one_pos

/-- The scan from an opening parenthesis finds the first place of balance, and there a closing one. -/
theorem exists_closingByte (here : bs.drop opening = '('.toUInt8 :: rest) : ∃ place,
    closingByte bs opening = some place ∧
      (∀ i, place = some i → bs[i]? = some ')'.toUInt8 ∧ IsLeast {j | BalancedAt bs opening j} i) ∧
      (place = none → ∀ j, ¬ BalancedAt bs opening j) := by
  refine ⟨_, closingByte_eq here, fun i found => ?_, fun none j balanced => ?_⟩
  · obtain ⟨n, zero, rfl⟩ := Option.map_eq_some_iff.1 found
    obtain ⟨within, sum, first⟩ := firstZero_eq_some_iff.1 zero
    rw [length_changes] at within
    have falls := getElem?_of_firstZero neg_one_le_of_mem_changes Int.one_pos zero
    refine ⟨?_, (balancedAt_iff here).2 ⟨n, within, rfl, sum⟩, fun j balanced => ?_⟩
    · have place := congrArg (·[n + 1]?) here
      simp only [List.getElem?_drop, List.getElem?_cons_succ, getElem?_of_changes falls] at place
      rw [← place]
      congr 1
      omega
    · obtain ⟨m, -, rfl, zero'⟩ := (balancedAt_iff here).1 balanced
      exact Nat.add_le_add_left (Nat.le_of_not_lt fun earlier => first m earlier zero') _
  · obtain ⟨m, within, -, zero⟩ := (balancedAt_iff here).1 balanced
    exact firstZero_eq_none_iff.1 (Option.map_eq_none_iff.1 none) m (by rwa [length_changes]) zero

end

/-! ### Bytes and characters -/

section

variable {quote : Option Char} {depth index n : Nat} {t : Text}

theorem closingFrom_literal {q c : Char} (plain : c ≠ '\\') (cs : Text) :
    closingFrom (some q) depth n (c :: cs) =
      closingFrom (if c = q then none else some q) depth (n + 1) cs := by
  cases cs <;> exact if_neg plain

theorem closingByteFrom_literal {mark b : UInt8} (plain : b ≠ '\\'.toUInt8) (bs : List UInt8) :
    closingByteFrom (some mark) depth index (b :: bs) =
      closingByteFrom (if b = mark then none else some mark) depth (index + 1) bs := by
  cases bs <;> exact if_neg plain

/-- Counting from further on moves the result as far. -/
theorem closingFrom_add (offset : Nat) :
    closingFrom quote depth (offset + n) t = (closingFrom quote depth n t).map (offset + ·) := by
  fun_induction closingFrom quote depth n t with
  | case1 | case2 => rfl
  | case3 depth n q y rest ih => exact (if_pos rfl).trans ih
  | case4 depth n c cs q plain ih =>
    rw [closingFrom_literal plain]
    exact ih
  | case5 depth n c cs mark ih => exact (if_pos mark).trans ih
  | case6 depth n cs notMark ih => exact (if_neg notMark).trans ((if_pos rfl).trans ih)
  | case7 depth n cs last => exact if_pos last
  | case8 depth n cs deeper notMark notOpening ih => exact (if_neg deeper).trans ih
  | case9 depth n c cs notMark notOpening notClosing ih =>
    exact (if_neg notMark).trans ((if_neg notOpening).trans ((if_neg notClosing).trans ih))

/-- No byte beyond ASCII changes anything. -/
theorem closingByteFrom_append {w bs : List UInt8} (high : ∀ b ∈ w, 128 ≤ b.toNat)
    (mark : ∀ q ∈ quote, q.toNat < 128) : closingByteFrom (quote.map Char.toUInt8) depth index (w ++ bs) =
      closingByteFrom (quote.map Char.toUInt8) depth (index + w.length) bs := by
  induction w generalizing index with
  | nil => rfl
  | cons b w ih =>
    obtain ⟨here, others⟩ := List.forall_mem_cons.1 high
    have other (c : Char) (ascii : c.toNat < 128) : b ≠ c.toUInt8 := ne_toUInt8 here ascii
    rw [List.length_cons, show index + (w.length + 1) = index + 1 + w.length by omega, ← ih others]
    cases quote with
    | none =>
      have notMark : ¬ isMark b = true := by
        simp [isMark, other '\'' (by decide), other '"' (by decide), other '`' (by decide)]
      exact (if_neg notMark).trans ((if_neg (other '(' (by decide))).trans (if_neg (other ')' (by decide))))
    | some q =>
      rw [Option.map_some, List.cons_append, closingByteFrom_literal (other '\\' (by decide)),
        if_neg (other q (mark q rfl))]

/-- A position in a text, counted in bytes from further on. -/
def byteOffset (index : Nat) (t : Text) (place : Option Nat) : Option Nat :=
  place.map fun m => index + (bytes (t.take m)).length

theorem byteOffset_cons (index : Nat) (c : Char) (t : Text) (place : Option Nat) :
    byteOffset index (c :: t) (place.map (1 + ·)) =
      byteOffset (index + (String.utf8EncodeChar c).length) t place := by
  rw [byteOffset, byteOffset, Option.map_map]
  congr 1
  funext m
  simp only [Function.comp_apply, Nat.add_comm 1, List.take_succ_cons, bytes_cons, List.length_append]
  omega

theorem isMark_toUInt8 {c : Char} (ascii : c.toNat < 128) :
    isMark c.toUInt8 = (c = '\'' || c = '"' || c = '`') := by
  simp only [isMark, Bool.beq_eq_decide_eq, toUInt8_inj ascii (d := '\'') (by decide),
    toUInt8_inj ascii (d := '"') (by decide), toUInt8_inj ascii (d := '`') (by decide)]

/-- One step of both scans over the same character. -/
theorem closingByteFrom_bytes_cons {quote' : Option Char} {depth' : Nat} {c : Char}
    (bytesStep : closingByteFrom (quote.map Char.toUInt8) depth index (bytes (c :: t)) =
      closingByteFrom (quote'.map Char.toUInt8) depth' (index + (String.utf8EncodeChar c).length) (bytes t))
    (charsStep : closingFrom quote depth 0 (c :: t) = closingFrom quote' depth' (1 + 0) t)
    (later : ∀ {index}, closingByteFrom (quote'.map Char.toUInt8) depth' index (bytes t) =
      some (byteOffset index t (closingFrom quote' depth' 0 t))) :
    closingByteFrom (quote.map Char.toUInt8) depth index (bytes (c :: t)) =
      some (byteOffset index (c :: t) (closingFrom quote depth 0 (c :: t))) := by
  rw [bytesStep, later, charsStep, closingFrom_add, byteOffset_cons]

/-- In a literal, a character with a backslash before it is passed as a whole. -/
theorem closingByteFrom_escape {q : Char} (ascii : q.toNat < 128) (c : Char) (t : Text) :
    closingByteFrom ((some q).map Char.toUInt8) depth index (bytes ('\\' :: c :: t)) =
      closingByteFrom ((some q).map Char.toUInt8) depth (index + 1 + (String.utf8EncodeChar c).length)
        (bytes t) := by
  obtain ⟨x, w, split, high⟩ := exists_utf8EncodeChar_eq_cons c
  rw [bytes_cons_of_ascii (by decide), bytes_cons, split, List.length_cons,
    show index + 1 + (w.length + 1) = index + 2 + w.length by omega,
    ← closingByteFrom_append high (by simpa)]
  exact if_pos rfl

/-- In a literal, a character other than a backslash closes it or is passed. -/
theorem closingByteFrom_quoted {q c : Char} (ascii : q.toNat < 128) (plain : c ≠ '\\') (t : Text) :
    closingByteFrom ((some q).map Char.toUInt8) depth index (bytes (c :: t)) =
      closingByteFrom ((if c = q then none else some q).map Char.toUInt8) depth
        (index + (String.utf8EncodeChar c).length) (bytes t) := by
  rcases Nat.lt_or_ge c.toNat 128 with ascii' | wide
  · rw [bytes_cons_of_ascii ascii', utf8EncodeChar_of_ascii ascii', Option.map_some,
      closingByteFrom_literal (mt (toUInt8_inj ascii' (by decide)).1 plain)]
    simp only [toUInt8_inj ascii' ascii, List.length_singleton]
    split <;> rfl
  · have other : c ≠ q := by
      rintro rfl
      omega
    rw [if_neg other, bytes_cons]
    exact closingByteFrom_append (fun b => le_of_mem_utf8EncodeChar wide) (by simpa)

/-- In the code, a character that is neither a quotation mark nor a parenthesis is passed. -/
theorem closingByteFrom_plain {c : Char} (notMark : ¬ (c = '\'' || c = '"' || c = '`') = true)
    (notOpening : c ≠ '(') (notClosing : c ≠ ')') (t : Text) :
    closingByteFrom ((none : Option Char).map Char.toUInt8) depth index (bytes (c :: t)) =
      closingByteFrom ((none : Option Char).map Char.toUInt8) depth (index + (String.utf8EncodeChar c).length)
        (bytes t) := by
  rcases Nat.lt_or_ge c.toNat 128 with ascii | wide
  · rw [bytes_cons_of_ascii ascii, utf8EncodeChar_of_ascii ascii]
    have plain : ¬ isMark c.toUInt8 = true := by rwa [isMark_toUInt8 ascii]
    exact (if_neg plain).trans ((if_neg (mt (toUInt8_inj ascii (by decide)).1 notOpening)).trans
      (if_neg (mt (toUInt8_inj ascii (by decide)).1 notClosing)))
  · rw [bytes_cons]
    exact closingByteFrom_append (fun b => le_of_mem_utf8EncodeChar wide) (by simp)

/-- The scan over bytes stops where the scan over characters stops. -/
theorem closingByteFrom_bytes (inside : 0 < depth) (mark : ∀ q ∈ quote, q.toNat < 128) :
    closingByteFrom (quote.map Char.toUInt8) depth index (bytes t) =
      some (byteOffset index t (closingFrom quote depth 0 t)) := by
  -- the cases of the scan are the same from wherever it counts
  have n := 0
  fun_induction closingFrom quote depth n t generalizing index with
  | case1 => rfl
  | case2 depth n q => rfl
  | case3 depth n q y rest ih =>
    have chars : closingFrom (some q) depth 0 ('\\' :: y :: rest) =
        ((closingFrom (some q) depth 0 rest).map (1 + ·)).map (1 + ·) := by
      rw [← closingFrom_add, ← closingFrom_add]
      exact if_pos rfl
    refine (closingByteFrom_escape (mark q rfl) y rest).trans ((ih inside mark).trans ?_)
    rw [chars, byteOffset_cons, byteOffset_cons, utf8EncodeChar_of_ascii (c := '\\') (by decide),
      List.length_singleton]
  | case4 depth n c cs q plain ih =>
    have mark' : ∀ r ∈ (if c = q then none else some q), r.toNat < 128 := by
      split
      · simp
      · exact mark
    exact closingByteFrom_bytes_cons (closingByteFrom_quoted (mark q rfl) plain cs)
      (closingFrom_literal plain cs) (ih inside mark')
  | case5 depth n c cs isMark ih =>
    have ascii : c.toNat < 128 := by
      simp only [Bool.or_eq_true, decide_eq_true_eq] at isMark
      rcases isMark with (rfl | rfl) | rfl <;> decide
    refine closingByteFrom_bytes_cons ?_ (if_pos isMark) (ih inside (by simpa using ascii))
    rw [bytes_cons_of_ascii ascii, utf8EncodeChar_of_ascii ascii]
    exact if_pos ((isMark_toUInt8 ascii).trans isMark)
  | case6 depth n cs notMark ih =>
    refine closingByteFrom_bytes_cons ?_ ((if_neg notMark).trans (if_pos rfl)) (ih (Nat.succ_pos _) mark)
    rw [bytes_cons_of_ascii (by decide)]
    rfl
  | case7 depth n cs last notMark notOpening =>
    obtain rfl : depth = 1 := by omega
    rfl
  | case8 depth n cs deeper notMark notOpening ih =>
    obtain ⟨outer, rfl⟩ : ∃ outer, depth = outer + 1 := ⟨depth - 1, by omega⟩
    refine closingByteFrom_bytes_cons ?_ (if_neg deeper) (ih (by omega) mark)
    rw [bytes_cons_of_ascii (by decide)]
    exact if_neg (show ¬ outer = 0 by omega)
  | case9 depth n c cs notMark notOpening notClosing ih =>
    exact closingByteFrom_bytes_cons (closingByteFrom_plain notMark notOpening notClosing cs)
      ((if_neg notMark).trans ((if_neg notOpening).trans (if_neg notClosing))) (ih inside mark)

end

/-! ### The closing parenthesis -/

/-- The byte offset of the parenthesis that closes the one between two parts of a text. -/
def closingOffset (before rest : Text) : Option Nat :=
  byteOffset (bytes before).length ('(' :: rest) (closingParen ('(' :: rest))

theorem closingByte_bytes (before rest : Text) :
    closingByte (bytes (before ++ '(' :: rest)) (bytes before).length = some (closingOffset before rest) := by
  rw [closingByte, bytes_append, List.drop_left]
  have opened : closingParen ('(' :: rest) = (closingFrom none 1 0 rest).map (1 + ·) := by
    rw [← closingFrom_add]
    rfl
  rw [closingOffset, opened, byteOffset_cons, ← closingByteFrom_bytes Nat.one_pos (by simp),
    bytes_cons_of_ascii (by decide)]
  rfl

/-- The closing parenthesis matches the opening one, wherever in a text a parenthesis opens. The count of
    open ones has a value at each step of the scan over bytes, and the scan finds what the scan over
    characters finds. If that is a place, a closing parenthesis stands there, and it is the first place
    behind the opening one up to which as many parentheses outside string literals open as close; if it
    is none, there is no such place. -/
theorem closingParen_matches {t : Text} {opening : Nat} (here : (bytes t)[opening]? = some '('.toUInt8) :
    ∃ before rest, t = before ++ '(' :: rest ∧ opening = (bytes before).length ∧
      closingByte (bytes t) opening = some (closingOffset before rest) ∧
      (∀ i, closingOffset before rest = some i →
        (bytes t)[i]? = some ')'.toUInt8 ∧ IsLeast {j | BalancedAt (bytes t) opening j} i) ∧
      (closingOffset before rest = none → ∀ j, ¬ BalancedAt (bytes t) opening j) := by
  obtain ⟨before, rest, rfl, rfl⟩ := exists_of_getElem?_bytes (by decide) here
  have behind : (bytes (before ++ '(' :: rest)).drop (bytes before).length = '('.toUInt8 :: bytes rest := by
    rw [bytes_append, List.drop_left, bytes_cons_of_ascii (by decide)]
  obtain ⟨place, scanned, found, missed⟩ := exists_closingByte behind
  obtain rfl := Option.some.inj (scanned.symm.trans (closingByte_bytes before rest))
  exact ⟨before, rest, rfl, rfl, scanned, found, missed⟩

/-- The parenthesis between the quotes does not count, and the escaped quote closes no literal. -/
theorem isLeast_closing_behind_quotation :
    IsLeast {j | BalancedAt (bytes "f('é\\')')".toList) 1 j} 9 := by
  obtain ⟨before, rest, -, -, scanned, found, -⟩ :=
    @closingParen_matches "f('é\\')')".toList 1 (by decide +kernel)
  have place : closingByte (bytes "f('é\\')')".toList) 1 = some (some 9) := by decide +kernel
  exact (found 9 (Option.some.inj (scanned.symm.trans place))).2

end SourceAudit.Fix.Console

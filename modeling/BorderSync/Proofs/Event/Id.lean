/-
# BorderSync.Proofs.Event.Id -- what an id tells of the copy that has it

An id begins with two numbers, and a bracket follows each of them. The brackets that end them are the first
ones in what follows, and so both numbers can be told from the id, whatever the token, the upstream and the
host are: these stand behind, and may hold brackets themselves. A token of letters and digits can be read back
as well.
-/
import BorderSync.Event.Id
import BorderSync.Proofs.Text.Cut

namespace BorderSync.Event.Id

/-! ## Numbers -/

/-- A number is written in digits. -/
theorem isDigit_of_mem {n : Nat} {c : Char} (h : c ∈ Nat.toDigits 10 n) : c.isDigit = true :=
  Nat.isDigit_of_mem_toDigits (by decide) (by decide) h

/-- The value of a digit. -/
theorem digit?_of_isDigit {c : Char} (h : c.isDigit = true) :
    Text.Decimal.digit? c = some (c.toNat - '0'.toNat) := by
  have hrange : '0' ≤ c ∧ c ≤ '9' := by
    simpa [Char.isDigit, Char.le_def] using h
  unfold Text.Decimal.digit?
  rw [if_pos hrange]

/-- Digits are read from the left, and the value so far is shifted. -/
theorem foldl_digits {cs : List Char} (h : ∀ c ∈ cs, c.isDigit = true) (init : Nat) :
    cs.foldl (fun acc c => do
      let n ← acc
      let d ← Text.Decimal.digit? c
      return n * 10 + d) (some init) = some (Nat.ofDigitChars 10 cs init) := by
  induction cs generalizing init with
  | nil => rfl
  | cons c cs ih =>
    rw [List.foldl_cons, Nat.ofDigitChars_cons, digit?_of_isDigit (h c List.mem_cons_self), Nat.mul_comm 10 init]
    exact ih (fun d hd => h d (List.mem_cons_of_mem c hd)) _

/-- **A number is read back.** -/
theorem number?_toDigits (n : Nat) : number? (Nat.toDigits 10 n) = some n := by
  have hsome : (Nat.toDigits 10 n).isEmpty = false := by
    rw [List.isEmpty_eq_false_iff]
    exact Nat.toDigits_ne_nil
  unfold number?
  rw [hsome, if_neg (by decide), foldl_digits fun c hc => isDigit_of_mem hc, Nat.ofDigitChars_ten_toDigits]

/-! ## Fields -/

/-- A field that is followed by a bracket and the beginning of the next one is read up to there. -/
theorem field?_append {p : Char → Bool} (hp : p ']' = false) {cs : List Char} (hcs : ∀ c ∈ cs, p c = true)
    (rest : List Char) : field? p (cs ++ ']' :: ':' :: '[' :: rest) = some (cs, rest) := by
  have hstop : ¬ p ']' = true := Bool.eq_false_iff.mp hp
  have hdrop : (cs ++ ']' :: ':' :: '[' :: rest).dropWhile p = ']' :: ':' :: '[' :: rest := by
    rw [List.dropWhile_append_of_pos hcs, List.dropWhile_cons_of_neg hstop]
  have htake : (cs ++ ']' :: ':' :: '[' :: rest).takeWhile p = cs := by
    rw [List.takeWhile_append_of_pos hcs, List.takeWhile_cons_of_neg hstop, List.append_nil]
  unfold field?
  rw [hdrop, htake]
  rfl

/-- What follows the token. -/
def body (upstream host : String) : List Char :=
  upstream.toList ++ "]:[".toList ++ host.toList ++ "]".toList

/-- The characters of an id. -/
theorem toList_text (i j : Nat) (token upstream host : String) : (text i j token upstream host).toList =
    '[' :: (Nat.toDigits 10 i ++ ']' :: ':' :: '[' ::
      (Nat.toDigits 10 j ++ ']' :: ':' :: '[' :: (token.toList ++ ']' :: ':' :: '[' :: body upstream host))) := by
  simp [text, body]

/-- **Ids tell both indices**, whatever the tokens, the upstreams and the hosts are. -/
theorem text_indices {i j i' j' : Nat} {token upstream host token' upstream' host' : String}
    (h : text i j token upstream host = text i' j' token' upstream' host') : i = i' ∧ j = j' := by
  have hbracket (n : Nat) : ']' ∉ Nat.toDigits 10 n := by
    intro hmem
    exact absurd (isDigit_of_mem hmem) (by decide)
  have hdigits {m n : Nat} (hmn : Nat.toDigits 10 m = Nat.toDigits 10 n) : m = n := by
    rw [← Nat.ofDigitChars_ten_toDigits (n := m), hmn, Nat.ofDigitChars_ten_toDigits]
  have hlist := congrArg String.toList h
  rw [toList_text, toList_text] at hlist
  obtain ⟨hi, hrest⟩ := Text.cut_first (hbracket i) (hbracket i') (List.cons.inj hlist).2
  obtain ⟨hj, -⟩ := Text.cut_first (hbracket j) (hbracket j')
    (List.cons.inj (List.cons.inj hrest).2).2
  exact ⟨hdigits hi, hdigits hj⟩

/-- **Both indices and the token are read back.** -/
theorem read?_text (i j : Nat) {token : String} (htoken : token.toList.all Char.isAlphanum = true)
    (upstream host : String) : read? (text i j token upstream host) = some ⟨i, j, token⟩ := by
  have hletters : ∀ c ∈ token.toList, c.isAlphanum = true := List.all_eq_true.mp htoken
  have hdigits (n : Nat) : ∀ c ∈ Nat.toDigits 10 n, c.isDigit = true := fun c hc => isDigit_of_mem hc
  unfold read?
  rw [toList_text, readParts?, field?_append (by decide) (hdigits i)]
  simp only [Option.bind_eq_bind, Option.bind_some]
  rw [field?_append (by decide) (hdigits j)]
  simp only [Option.bind_some]
  rw [field?_append (by decide) hletters]
  simp only [Option.bind_some, number?_toDigits, String.ofList_toList, Option.pure_def, Option.map_some]

end BorderSync.Event.Id

import Mathlib
import VersionedLedger.Scenario.Pattern

/-! Which texts are failure patterns, and what they say. A text is read character by character, so that what it says is
what its parts say in order, and its first character that is neither a letter nor a separator decides the error. -/
namespace VersionedLedger.Pattern

def letters : List Char := ['F', 'f', 'S', 's']

def marksFailure (c : Char) : Bool := c ∈ ['F', 'f']

def Admits (c : Char) : Prop := c ∈ letters ∨ isSeparator c = true

instance (c : Char) : Decidable (Admits c) := inferInstanceAs (Decidable (_ ∨ _))

def refusal (c : Char) : Error := .validation s!"invalid pattern character '{c}', expected F or S"

/-- The second text is the first one with separators put in. -/
inductive Spaced : List Char → List Char → Prop
  | nil : Spaced [] []
  | keep (c : Char) {cs ds : List Char} (rest : Spaced cs ds) : Spaced (c :: cs) (c :: ds)
  | insert {c : Char} {cs ds : List Char} (separator : isSeparator c = true) (rest : Spaced cs ds) : Spaced cs (c :: ds)

variable {c u : Char} {cs before after : List Char} {pattern : List Bool}

theorem toUpper_eq_iff (upper : u.isUpper = true) : c.toUpper = u ↔ c = u ∨ c = u.toLower := by
  constructor
  · intro same
    by_cases lower : c.isLower = true
    · have own : c.toLower = c := Char.toLower_eq_of_not_isUpper (Char.not_isUpper_of_isLower lower)
      rw [← own,← c.toLower_toUpper_eq_toLower,same]
      exact .inr rfl
    · exact .inl ((Char.toUpper_eq_of_not_isLower lower).symm.trans same)
  · have own : u.toUpper = u := Char.toUpper_eq_of_not_isLower (Char.not_isLower_of_isUpper upper)
    rintro (rfl | rfl)
    · exact own
    · rw [u.toUpper_toLower_eq_toUpper,own]

theorem ofChar_of_letter (letter : c ∈ letters) : ofChar c = .ok (marksFailure c) := by
  simp only [letters,List.mem_cons,List.not_mem_nil,or_false] at letter
  rcases letter with rfl | rfl | rfl | rfl <;> rfl

theorem ofChar_of_other (other : c ∉ letters) : ofChar c = .error c.toUpper := by
  have absent : (c = 'F' ∨ c = 'f') ∨ c = 'S' ∨ c = 's' → False := by
    simpa [letters,or_assoc] using other
  unfold ofChar
  split
  · next same => exact (absent (.inl ((toUpper_eq_iff rfl).mp same))).elim
  · next same => exact (absent (.inr ((toUpper_eq_iff rfl).mp same))).elim
  · rfl

theorem not_mem_letters (separator : isSeparator c = true) : c ∉ letters := by
  intro letter
  simp only [letters,List.mem_cons,List.not_mem_nil,or_false] at letter
  rcases letter with rfl | rfl | rfl | rfl <;> exact absurd separator (by decide)

theorem ofChars_cons (c : Char) (rest : List Char) : ofChars (c :: rest) =
    if isSeparator c then ofChars rest
    else (do let failure ← ofChar c; let others ← ofChars rest; pure (failure :: others)) := rfl

theorem ofChars_append (cs ds : List Char) :
    ofChars (cs ++ ds) = (do let p ← ofChars cs; let q ← ofChars ds; pure (p ++ q)) := by
  induction cs with
  | nil =>
    rw [List.nil_append]
    cases ofChars ds <;> rfl
  | cons c rest ih =>
    rw [List.cons_append,ofChars_cons,ofChars_cons,ih]
    split
    · rfl
    · cases ofChar c with
      | error u => rfl
      | ok failure => cases ofChars rest <;> cases ofChars ds <;> rfl

theorem ofChars_of_admits (admits : ∀ c ∈ cs, Admits c) :
    ofChars cs = .ok ((cs.filter (· ∈ letters)).map marksFailure) := by
  induction cs with
  | nil => rfl
  | cons c rest ih =>
    obtain ⟨first,others⟩ := List.forall_mem_cons.mp admits
    unfold ofChars
    rw [ih others]
    by_cases separator : isSeparator c = true
    · rw [if_pos separator,List.filter_cons_of_neg (by simpa using not_mem_letters separator)]
    · have letter := first.resolve_right separator
      rw [if_neg separator,ofChar_of_letter letter,List.filter_cons_of_pos (by simpa using letter)]
      rfl

theorem ofChars_of_first (admits : ∀ c ∈ before, Admits c) (other : ¬ Admits c) :
    ofChars (before ++ c :: after) = .error c.toUpper := by
  obtain ⟨unlettered,unseparated⟩ := not_or.mp other
  have fails : ofChars (c :: after) = .error c.toUpper := by
    rw [ofChars,if_neg unseparated,ofChar_of_other unlettered]
    rfl
  -- what is read before it does not matter
  rw [ofChars_append,ofChars_of_admits admits,fails]
  rfl

theorem exists_first (refused : ¬ ∀ c ∈ cs, Admits c) :
    ∃ before c after, cs = before ++ c :: after ∧ (∀ d ∈ before, Admits d) ∧ ¬ Admits c := by
  induction cs with
  | nil => exact absurd (List.forall_mem_nil _) refused
  | cons c rest ih =>
    by_cases first : Admits c
    · obtain ⟨before,d,after,rfl,admits,other⟩ := ih fun others => refused (List.forall_mem_cons.mpr ⟨first,others⟩)
      exact ⟨c :: before,d,after,rfl,List.forall_mem_cons.mpr ⟨first,admits⟩,other⟩
    · exact ⟨[],c,rest,rfl,List.forall_mem_nil _,first⟩

theorem ofChars_cases (cs : List Char) :
    (∀ c ∈ cs, Admits c) ∧ ofChars cs = .ok ((cs.filter (· ∈ letters)).map marksFailure) ∨
    ∃ before c after, cs = before ++ c :: after ∧ (∀ d ∈ before, Admits d) ∧ ¬ Admits c ∧
      ofChars cs = .error c.toUpper := by
  by_cases admits : ∀ c ∈ cs, Admits c
  · exact .inl ⟨admits,ofChars_of_admits admits⟩
  · obtain ⟨before,c,after,rfl,earlier,other⟩ := exists_first admits
    exact .inr ⟨before,c,after,rfl,earlier,other,ofChars_of_first earlier other⟩

theorem ofChars_eq_ok_iff : ofChars cs = .ok pattern ↔
    (∀ c ∈ cs, Admits c) ∧ pattern = (cs.filter (· ∈ letters)).map marksFailure := by
  constructor
  · intro read
    obtain ⟨admits,whole⟩ | ⟨_,_,_,_,_,_,fails⟩ := ofChars_cases cs
    · exact ⟨admits,Except.ok.inj (read.symm.trans whole)⟩
    · cases fails.symm.trans read
  · rintro ⟨admits,rfl⟩
    exact ofChars_of_admits admits

theorem ofChars_eq_error_iff : ofChars cs = .error u ↔
    ∃ before c after, cs = before ++ c :: after ∧ (∀ d ∈ before, Admits d) ∧ ¬ Admits c ∧ u = c.toUpper := by
  constructor
  · intro read
    obtain ⟨_,whole⟩ | ⟨before,c,after,split,earlier,other,fails⟩ := ofChars_cases cs
    · cases whole.symm.trans read
    · exact ⟨before,c,after,split,earlier,other,Except.error.inj (read.symm.trans fails)⟩
  · rintro ⟨before,c,after,rfl,earlier,other,rfl⟩
    exact ofChars_of_first earlier other

theorem ofChars_spaced {spaced : List Char} (inserted : Spaced cs spaced) : ofChars spaced = ofChars cs := by
  induction inserted with
  | nil => rfl
  | keep c _ ih => rw [ofChars_cons,ofChars_cons,ih]
  | insert separator _ ih => rw [ofChars_cons,if_pos separator,ih]

variable {text : String} {e : Error}

theorem parse_eq (text : String) : parse text = (ofChars text.toList).mapError refusal := by
  unfold parse
  cases ofChars text.toList <;> rfl

theorem parse_eq_ok_iff : parse text = .ok pattern ↔ ofChars text.toList = .ok pattern := by
  rw [parse_eq]
  cases ofChars text.toList <;> simp [Except.mapError]

theorem parse_eq_error_iff : parse text = .error e ↔ ∃ u, ofChars text.toList = .error u ∧ e = refusal u := by
  rw [parse_eq]
  cases ofChars text.toList <;> simp [Except.mapError,eq_comm]

theorem parse_append (a b : String) :
    parse (a ++ b) = (do let p ← parse a; let q ← parse b; pure (p ++ q)) := by
  rw [parse_eq,parse_eq,parse_eq,String.toList_append,ofChars_append]
  cases ofChars a.toList <;> cases ofChars b.toList <;> rfl

theorem parse_render (pattern : List Bool) : parse (render pattern) = .ok pattern := by
  have letter (failure : Bool) : (if failure then 'F' else 'S') ∈ letters := by cases failure <;> decide
  have meaning (failure : Bool) : marksFailure (if failure then 'F' else 'S') = failure := by cases failure <;> rfl
  rw [parse_eq_ok_iff,render,String.toList_ofList,ofChars_eq_ok_iff]
  constructor
  · intro c member
    obtain ⟨failure,_,rfl⟩ := List.mem_map.mp member
    exact .inl (letter failure)
  · -- all that is written are letters
    rw [List.filter_eq_self.mpr ?_,List.map_map]
    · exact (List.map_id'' meaning pattern).symm
    · intro c member
      obtain ⟨failure,_,rfl⟩ := List.mem_map.mp member
      exact decide_eq_true (letter failure)

/-- A text is a pattern if it holds nothing but letters and separators, and then says what its letters say, in order;
otherwise its first other character is refused, in upper case. Two texts in a row say what the first and then the
second one says, separators make no difference anywhere, and what is written for a pattern is read back. -/
theorem parse_by_character (a : String) :
    (∀ p, parse a = .ok p ↔
      (∀ c ∈ a.toList, Admits c) ∧ p = (a.toList.filter (· ∈ letters)).map marksFailure) ∧
    (∀ e, parse a = .error e ↔ ∃ before c after, a.toList = before ++ c :: after ∧
      (∀ d ∈ before, Admits d) ∧ ¬ Admits c ∧ e = refusal c.toUpper) ∧
    (∀ b, parse (a ++ b) = match parse a, parse b with
      | .ok p, .ok q => .ok (p ++ q)
      | .error e, _ => .error e
      | .ok _, .error e => .error e) ∧
    (∀ spaced : String, Spaced a.toList spaced.toList → parse spaced = parse a) ∧
    ∀ pattern, parse (render pattern) = .ok pattern := by
  refine ⟨fun p => parse_eq_ok_iff.trans ofChars_eq_ok_iff,fun e => ?_,fun b => ?_,fun spaced inserted => ?_,parse_render⟩
  · rw [parse_eq_error_iff]
    constructor
    · rintro ⟨u,read,rfl⟩
      obtain ⟨before,c,after,split,admits,other,rfl⟩ := ofChars_eq_error_iff.mp read
      exact ⟨before,c,after,split,admits,other,rfl⟩
    · rintro ⟨before,c,after,split,admits,other,rfl⟩
      exact ⟨c.toUpper,ofChars_eq_error_iff.mpr ⟨before,c,after,split,admits,other,rfl⟩,rfl⟩
  · rw [parse_append]
    cases parse a <;> cases parse b <;> rfl
  · rw [parse_eq,parse_eq,ofChars_spaced inserted]

/-- A comma and a wide blank stand between two letters, and a text with two other characters follows. -/
theorem parse_by_character_spaced :
    parse "F,\u3000s" = .ok [true, false] ∧ parse ("Fs" ++ "f xé") = .error (refusal 'X') := by
  have inserted : Spaced "Fs".toList "F,\u3000s".toList :=
    .keep 'F' (.insert (c := ',') rfl (.insert (c := '\u3000') rfl (.keep 's' .nil)))
  obtain ⟨reads,_,joined,same,_⟩ := parse_by_character "Fs"
  have first : parse "Fs" = .ok [true, false] := (reads _).mpr ⟨by simp [Admits,letters],rfl⟩
  have second : parse "f xé" = .error (refusal 'X') := parse_eq_error_iff.mpr ⟨'X',rfl,rfl⟩
  have joined := joined "f xé"
  rw [first,second] at joined
  exact ⟨(same "F,\u3000s" inserted).trans first,joined⟩

end VersionedLedger.Pattern

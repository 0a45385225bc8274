-- SUMMARY: `getopt_long` for options that all take an argument, and command lines that are read back as they were written.
import HawkGate.Lib.CString
import Mathlib.Data.List.Basic

/-!
# getopt_long

The words behind the command, read in one pass as GNU `getopt_long` does for an
option string without a leading `+` or `-` while `POSIXLY_CORRECT` is not set:
words that are no options are passed over, `--` ends the options, a long option
may be cut short as long as it stays unique, and an argument is the rest of its
word or else the next word, whatever that looks like. Every option here takes an
argument.
-/

namespace Getopt

open CString

/-- The options, with the value that is returned for each. -/
structure Options (V : Type) where
  short : Char → Option V
  long : List (CString × V)

/-- What one call returns: an option with its argument, or `?`. -/
inductive Item (V : Type) where
  | opt (val : V) (arg : CString)
  | bad
  deriving DecidableEq

variable {V : Type} [DecidableEq V] (o : Options V)

/-- An exact match, or the value that every option with this beginning has. -/
def longVal (name : CString) : Option V :=
  match o.long.lookup name with
  | some v => some v
  | none =>
    match o.long.filter fun e => name.isPrefixOf e.1 with
    | [] => none
    | e :: es => if es.all fun e' => e'.2 = e.2 then some e.2 else none

/-- A word of short options: what it returns, and the option whose argument is the next word. -/
def readShort : CString → List (Item V) × Option V
  | [] => ([], none)
  | c :: cs =>
    match o.short c with
    | none => (.bad :: (readShort cs).1, (readShort cs).2)
    | some v => if cs = [] then ([], some v) else ([.opt v cs], none)

/-- A long option, without the two dashes. -/
def readLong (word : CString) : List (Item V) × Option V :=
  match splitFirst '=' word with
  | some (name, arg) =>
    match longVal o name with
    | none => ([.bad], none)
    | some v => ([.opt v arg], none)
  | none =>
    match longVal o word with
    | none => ([.bad], none)
    | some v => ([], some v)

def readWord : CString → List (Item V) × Option V
  | '-' :: '-' :: word => readLong o word
  | '-' :: c :: cs => readShort o (c :: cs)
  | _ => ([], none)

/-- What the calls return, up to the -1. -/
def getoptLong : List CString → List (Item V)
  | [] => []
  | word :: words =>
    if word = "--".toList then []
    else
      match (readWord o word).2 with
      | none => (readWord o word).1 ++ getoptLong words
      | some v =>
        match words with
        | [] => (readWord o word).1 ++ [.bad]
        | arg :: words' => (readWord o word).1 ++ .opt v arg :: getoptLong words'

/-! ## Spellings -/

/-- A name of the long option with this value, in full or cut short: then every option that begins
    so has the value. -/
def NamesLong (name : CString) (v : V) : Prop :=
  o.long.lookup name = some v ∨
    o.long.lookup name = none ∧ (∃ e ∈ o.long, name <+: e.1) ∧
      ∀ e ∈ o.long, name <+: e.1 → e.2 = v

/-- The word is the option with this value: its letter behind one dash or its name behind two. -/
inductive Names : CString → V → Prop where
  | letter {c v} : c ≠ '-' → o.short c = some v → Names ['-', c] v
  | long {name v} : name ≠ [] → '=' ∉ name → NamesLong o name v → Names ('-' :: '-' :: name) v

/-- The word is passed over. -/
def Stray (word : CString) : Prop := word = ['-'] ∨ word.head? ≠ some '-'

/-- The words spell these options: an argument stands behind its option or is joined to it. -/
inductive Spells : List CString → List (Item V) → Prop where
  | nil : Spells [] []
  | stop (words : List CString) : Spells ("--".toList :: words) []
  | stray {word words items} : Stray word → Spells words items → Spells (word :: words) items
  | separate {word v words items} (arg : CString) : Names o word v → Spells words items →
      Spells (word :: arg :: words) (.opt v arg :: items)
  | letter {c v arg words items} : c ≠ '-' → o.short c = some v → arg ≠ [] → Spells words items →
      Spells (('-' :: c :: arg) :: words) (.opt v arg :: items)
  | equals {name v words items} (arg : CString) : '=' ∉ name → NamesLong o name v →
      Spells words items →
      Spells (('-' :: '-' :: (name ++ '=' :: arg)) :: words) (.opt v arg :: items)

variable {o}

theorem longVal_eq_some_iff {name : CString} {v : V} :
    longVal o name = some v ↔ NamesLong o name v := by
  have hbegins : ∀ e : CString × V, e ∈ o.long.filter (fun e => name.isPrefixOf e.1) ↔
      e ∈ o.long ∧ name <+: e.1 := by
    simp [List.mem_filter]
  unfold longVal NamesLong
  cases o.long.lookup name with
  | some w => simp
  | none =>
    cases hbegin : o.long.filter fun e => name.isPrefixOf e.1 with
    | nil =>
      rw [hbegin] at hbegins
      simp only [reduceCtorEq, false_or, true_and, false_iff, not_and]
      rintro ⟨e, he, hname⟩
      exact absurd ((hbegins e).mpr ⟨he, hname⟩) List.not_mem_nil
    | cons e es =>
      rw [hbegin] at hbegins
      have hfirst := (hbegins e).mp List.mem_cons_self
      dsimp only
      split
      · next hall =>
        have hsame : ∀ e' ∈ e :: es, e'.2 = e.2 := by simpa using hall
        simp only [Option.some.injEq, reduceCtorEq, false_or, true_and]
        constructor
        · rintro rfl
          exact ⟨⟨e, hfirst⟩, fun e' he' hname => hsame e' ((hbegins e').mpr ⟨he', hname⟩)⟩
        · exact fun h => h.2 e hfirst.1 hfirst.2
      · next hall =>
        simp only [reduceCtorEq, false_or, true_and, false_iff, not_and, not_forall]
        intro hexists
        by_contra hsame
        push Not at hsame
        refine hall (List.all_eq_true.mpr fun e' he' => ?_)
        obtain ⟨hmem, hname⟩ := (hbegins e').mp (List.mem_cons_of_mem e he')
        rw [hsame e' hmem hname, hsame e hfirst.1 hfirst.2]
        exact decide_eq_true rfl

omit [DecidableEq V] in
theorem readShort_eq_iff {c : Char} {cs : CString} {v : V} :
    readShort o (c :: cs) = ([], some v) ↔ cs = [] ∧ o.short c = some v := by
  rw [readShort]
  cases o.short c with
  | none => simp
  | some w =>
    by_cases hcs : cs = []
    · simp [hcs]
    · simp [hcs]

theorem readLong_eq_iff {word : CString} {v : V} :
    readLong o word = ([], some v) ↔ '=' ∉ word ∧ NamesLong o word v := by
  rw [readLong, ← longVal_eq_some_iff]
  cases hsplit : splitFirst '=' word with
  | some e =>
    obtain ⟨name, arg⟩ := e
    obtain ⟨-, rfl⟩ := eq_of_splitFirst hsplit
    dsimp only
    cases longVal o name with
    | none => simp
    | some w => simp
  | none =>
    have hword : '=' ∉ word := by
      intro hmem
      obtain ⟨name, arg, rfl, hname⟩ := List.eq_append_cons_of_mem hmem
      rw [splitFirst_append hname] at hsplit
      cases hsplit
    dsimp only
    cases longVal o word with
    | none => simp
    | some w => simp [hword]

/-- Exactly the option words are read as an option that waits for its argument. -/
theorem names_iff {word : CString} {v : V} :
    Names o word v ↔ word ≠ "--".toList ∧ readWord o word = ([], some v) := by
  constructor
  · rintro (⟨hc, hv⟩ | ⟨hname, heq, hv⟩)
    · refine ⟨fun h => hc (List.cons.inj (List.cons.inj h).2).1, ?_⟩
      rw [readWord, readShort_eq_iff]
      · exact ⟨rfl, hv⟩
      · exact hc
    · refine ⟨fun h => hname (List.cons.inj (List.cons.inj h).2).2, ?_⟩
      rw [readWord, readLong_eq_iff]
      exact ⟨heq, hv⟩
  · rintro ⟨hne, hread⟩
    unfold readWord at hread
    split at hread
    · next name =>
      obtain ⟨heq, hv⟩ := readLong_eq_iff.mp hread
      exact .long (fun hname => hne (hname ▸ rfl)) heq hv
    · next c cs hdash =>
      obtain ⟨rfl, hv⟩ := readShort_eq_iff.mp hread
      exact .letter hdash hv
    · cases hread

instance (word : CString) (v : V) : Decidable (Names o word v) :=
  decidable_of_iff _ names_iff.symm

theorem readWord_of_stray {word : CString} (h : Stray word) : readWord o word = ([], none) := by
  rcases h with rfl | h
  · rfl
  · unfold readWord
    split
    · exact absurd rfl h
    · exact absurd rfl h
    · rfl

theorem ne_dashes_of_stray {word : CString} (h : Stray word) : word ≠ "--".toList := by
  rintro rfl
  rcases h with h | h
  · exact absurd h (by decide)
  · exact h rfl

/-- What is spelled is read. -/
theorem getoptLong_of_spells {words : List CString} {items : List (Item V)}
    (h : Spells o words items) : getoptLong o words = items := by
  induction h with
  | nil => rfl
  | stop words => rw [getoptLong, if_pos rfl]
  | stray hword _ ih =>
    rw [getoptLong, if_neg (ne_dashes_of_stray hword), readWord_of_stray hword]
    exact ih
  | @separate word v words items arg hnames _ ih =>
    obtain ⟨hne, hread⟩ := names_iff.mp hnames
    rw [getoptLong, if_neg hne, hread]
    exact congrArg (.opt v arg :: ·) ih
  | @letter c v arg words items hc hshort harg _ ih =>
    have hread : readWord o ('-' :: c :: arg) = ([.opt v arg], none) := by
      rw [readWord, readShort, hshort]
      · exact if_neg harg
      · exact hc
    have hne : '-' :: c :: arg ≠ "--".toList := by
      intro heq
      exact hc (List.cons.inj (List.cons.inj heq).2).1
    rw [getoptLong, if_neg hne, hread]
    exact congrArg (.opt v arg :: ·) ih
  | @equals name v words items arg hname hval _ ih =>
    have hread : readWord o ('-' :: '-' :: (name ++ '=' :: arg)) = ([.opt v arg], none) := by
      rw [readWord, readLong, splitFirst_append hname]
      dsimp only
      rw [longVal_eq_some_iff.mpr hval]
    have hne : '-' :: '-' :: (name ++ '=' :: arg) ≠ "--".toList := by
      intro heq
      simp at heq
    rw [getoptLong, if_neg hne, hread]
    exact congrArg (.opt v arg :: ·) ih

omit [DecidableEq V] in
/-- The first letter of a word that is read without `?` is an option. -/
theorem readShort_eq {c : Char} {cs : CString} (h : .bad ∉ (readShort o (c :: cs)).1) :
    ∃ v, o.short c = some v ∧
      readShort o (c :: cs) = if cs = [] then ([], some v) else ([.opt v cs], none) := by
  rw [readShort] at h ⊢
  cases hshort : o.short c with
  | none =>
    rw [hshort] at h
    exact absurd List.mem_cons_self h
  | some v => exact ⟨v, rfl, rfl⟩

/-- A word that is read without `?` is stray, an option without its argument, or one with it. -/
theorem readWord_cases {word : CString} (hne : word ≠ "--".toList)
    (h : .bad ∉ (readWord o word).1) :
    (Stray word ∧ readWord o word = ([], none)) ∨ (∃ v, readWord o word = ([], some v)) ∨
      (∃ c v arg, word = '-' :: c :: arg ∧ c ≠ '-' ∧ o.short c = some v ∧ arg ≠ [] ∧
        readWord o word = ([.opt v arg], none)) ∨
      ∃ name v arg, word = '-' :: '-' :: (name ++ '=' :: arg) ∧ '=' ∉ name ∧
        longVal o name = some v ∧ readWord o word = ([.opt v arg], none) := by
  unfold readWord at h ⊢
  split at h
  · next rest =>
    refine Or.inr ?_
    rw [readLong] at h ⊢
    cases hsplit : splitFirst '=' rest with
    | some e =>
      obtain ⟨name, arg⟩ := e
      obtain ⟨hname, rfl⟩ := eq_of_splitFirst hsplit
      rw [hsplit] at h
      dsimp only at h ⊢
      cases hval : longVal o name with
      | none =>
        rw [hval] at h
        exact absurd List.mem_cons_self h
      | some v => exact Or.inr (Or.inr ⟨name, v, arg, rfl, hname, hval, rfl⟩)
    | none =>
      rw [hsplit] at h
      dsimp only at h ⊢
      cases hval : longVal o rest with
      | none =>
        rw [hval] at h
        exact absurd List.mem_cons_self h
      | some v => exact Or.inl ⟨v, rfl⟩
  · next c cs hdash =>
    refine Or.inr ?_
    obtain ⟨v, hshort, hread⟩ := readShort_eq h
    rw [hread]
    by_cases hcs : cs = []
    · exact Or.inl ⟨v, if_pos hcs⟩
    · exact Or.inr (Or.inl ⟨c, v, cs, rfl, fun hc => hdash (hc ▸ rfl), hshort, hcs, if_neg hcs⟩)
  · next hlong hletter =>
    refine Or.inl ⟨?_, rfl⟩
    match word with
    | [] => exact .inr (by simp)
    | [x] =>
      by_cases hx : x = '-'
      · exact .inl (by rw [hx])
      · exact .inr (by simpa using hx)
    | x :: c :: cs =>
      refine .inr fun hx => ?_
      exact hletter c cs (by rw [Option.some.inj hx])

/-- What is read without `?` is spelled. -/
theorem spells_of_getoptLong {words : List CString} (h : .bad ∉ getoptLong o words) :
    Spells o words (getoptLong o words) := by
  fun_induction getoptLong o words with
  | case1 => exact .nil
  | case2 words => exact .stop words
  | case3 word words hne hnone ih =>
    obtain ⟨hword, hwords⟩ := not_or.mp (mt List.mem_append.mpr h)
    have hrest := ih hwords
    rcases readWord_cases hne hword with ⟨hstray, hread⟩ | ⟨v, hread⟩ |
      ⟨c, v, arg, rfl, hc, hshort, harg, hread⟩ | ⟨name, v, arg, rfl, hname, hval, hread⟩
    · rw [hread]
      exact .stray hstray hrest
    · rw [hread] at hnone
      cases hnone
    · rw [hread]
      exact .letter hc hshort harg hrest
    · rw [hread]
      exact .equals arg hname (longVal_eq_some_iff.mp hval) hrest
  | case4 word hne v hv => exact absurd (List.mem_append_right _ List.mem_cons_self) h
  | case5 word hne v hv arg words ih =>
    obtain ⟨hword, hwords⟩ := not_or.mp (mt List.mem_append.mpr h)
    have hrest := ih fun hmem => hwords (List.mem_cons_of_mem _ hmem)
    rcases readWord_cases hne hword with ⟨-, hread⟩ | ⟨v', hread⟩ | ⟨c, v', arg', -, -, -, -, hread⟩ |
      ⟨name, v', arg', -, -, -, hread⟩
    · rw [hread] at hv
      cases hv
    · rw [hread] at hv ⊢
      cases hv
      exact .separate arg (names_iff.mpr ⟨hne, hread⟩) hrest
    · rw [hread] at hv
      cases hv
    · rw [hread] at hv
      cases hv

/-! ## Tables of a program -/

/-- The options of a program: what it makes of each item, where `unknown` is all that it refuses,
    and how it is written, with a name for each value that the table knows. -/
structure Codec (V X : Type) [DecidableEq V] where
  table : Options V
  flag : V → CString
  unknown : X
  toItem : X → Item V
  ofItem : Item V → X
  ofItem_toItem : ∀ x, ofItem (toItem x) = x
  toItem_ofItem : ∀ i, ofItem i = unknown ∨ toItem (ofItem i) = i
  ofItem_bad : ofItem .bad = unknown
  names : ∀ x v arg, toItem x = .opt v arg → Names table (flag v) v
  bad : table.short '?' = none

namespace Codec

variable {X : Type} (c : Codec V X)

def read (args : List CString) : List X := (getoptLong c.table args).map c.ofItem

/-- The words spell options that the program knows. -/
def Spelled (args : List CString) (xs : List X) : Prop := Spells c.table args (xs.map c.toItem)

/-- An unknown option is written as one that does not exist. -/
def write (xs : List X) : List CString :=
  xs.flatMap fun x =>
    match c.toItem x with
    | .opt v arg => [c.flag v, arg]
    | .bad => ["-?".toList]

/-- Known options are read exactly from the words that spell them. -/
theorem read_eq_iff {args : List CString} {xs : List X} (hxs : c.unknown ∉ xs) :
    c.read args = xs ↔ c.Spelled args xs := by
  constructor
  · rintro rfl
    have hbad : .bad ∉ getoptLong c.table args := fun h =>
      hxs (List.mem_map.mpr ⟨.bad, h, c.ofItem_bad⟩)
    have hitems : (c.read args).map c.toItem = getoptLong c.table args := by
      rw [read, List.map_map]
      refine (List.map_congr_left fun i hi => ?_).trans (List.map_id _)
      exact (c.toItem_ofItem i).resolve_left fun h => hxs (List.mem_map.mpr ⟨i, hi, h⟩)
    rw [Spelled, hitems]
    exact spells_of_getoptLong hbad
  · intro h
    rw [read, getoptLong_of_spells h, List.map_map]
    exact (List.map_congr_left fun x _ => c.ofItem_toItem x).trans (List.map_id xs)

@[simp] theorem read_write (xs : List X) : c.read (c.write xs) = xs := by
  induction xs with
  | nil => rfl
  | cons x xs ih =>
    rw [read, write, List.flatMap_cons]
    cases hx : c.toItem x with
    | opt v arg =>
      obtain ⟨hend, hread⟩ := names_iff.mp (c.names x v arg hx)
      dsimp only
      rw [List.cons_append, List.singleton_append, getoptLong, if_neg hend, hread]
      have hfirst : c.ofItem (.opt v arg) = x := hx ▸ c.ofItem_toItem x
      exact congrArg₂ List.cons hfirst ih
    | bad =>
      have hread : readWord c.table "-?".toList = ([.bad], none) := by
        change readShort c.table ['?'] = _
        rw [readShort, c.bad]
        rfl
      dsimp only
      rw [List.singleton_append, getoptLong, if_neg (by decide), hread]
      have hfirst : c.ofItem .bad = x := hx ▸ c.ofItem_toItem x
      exact congrArg₂ List.cons hfirst ih

end Codec

end Getopt

import Mathlib.Data.List.Perm.Basic
import TreeDigest.CommandLine.Parser
import TreeDigest.CommandLine.Printer
import TreeDigest.Proofs.Folds
import TreeDigest.Proofs.Text.Encoding
namespace TreeDigest

namespace CommandLine

theorem encode_append (s t : String) : Utf8.encode (s ++ t) = Utf8.encode s ++ Utf8.encode t := by
  simp only [Utf8.encode, Utf8.encodeChars, String.toList_append, List.flatMap_append]

inductive Assignment where
  | workers (n : UInt64)
  | timeout (n : UInt64)
  | exclude (pattern : String)
  | flag (f : Flag) (b : Bool)

namespace Assignment

def target : Assignment → Target
  | workers _ => .workers
  | timeout _ => .timeout
  | exclude _ => .exclude
  | flag f _ => .flag f

def text : Assignment → String
  | workers n | timeout n => toString n.toNat
  | exclude pattern => pattern
  | flag _ b => toString b

def argument (x : Assignment) : Bytes := written x.target x.text

def isPattern : Assignment → Bool
  | exclude _ => true
  | _ => false

def isGiven (a : Arguments) : Assignment → Bool
  | workers _ => a.workers.isSome
  | timeout _ => a.timeoutSeconds.isSome
  | exclude _ => false
  | flag f _ => (a.flag? f).isSome

def put (a : Arguments) : Assignment → Arguments
  | workers n => { a with workers := some n }
  | timeout n => { a with timeoutSeconds := some n }
  | exclude pattern => { a with exclude := a.exclude ++ [pattern] }
  | flag f b => a.setFlag f b

end Assignment

def assign (a : Arguments) (x : Assignment) : Except UsageError Arguments :=
  if x.isGiven a then .error .argumentConflict else .ok (x.put a)

def assignments (a : Arguments) : List Assignment :=
  (a.workers.map .workers).toList ++ (a.timeoutSeconds.map .timeout).toList ++
    a.exclude.map .exclude ++ flags.flatMap fun f => ((a.flag? f).map (.flag f)).toList

theorem options_eq (a : Arguments) : options a = (assignments a).map Assignment.argument := by
  have word (t : Target) (x : UInt64 → Assignment) (own : ∀ n, (x n).argument = written t (toString n.toNat))
      (n : Option UInt64) : writtenWord t n = (n.map x).toList.map Assignment.argument := by
    cases n with
    | none => rfl
    | some n => exact congrArg List.singleton (own n).symm
  have flag (f : Flag) : writtenFlag a f = ((a.flag? f).map (.flag f)).toList.map Assignment.argument := by
    rw [writtenFlag]
    cases a.flag? f <;> rfl
  simp only [options, assignments, List.map_append, List.map_map, List.map_flatMap, funext flag,
    word .workers .workers fun _ => rfl, word .timeout .timeout fun _ => rfl]
  rfl

theorem word?_digits (n : UInt64) : word? (toString n.toNat).toList = some n := by
  have digits : (toString n.toNat).toList = Nat.toDigits 10 n.toNat := Nat.toList_repr
  have each : ∀ c ∈ Nat.toDigits 10 n.toNat, c.isDigit = true :=
    fun c own => Nat.isDigit_of_mem_toDigits (by decide) (by decide) own
  have unsigned : (Nat.toDigits 10 n.toNat).head? ≠ some '+' := by
    intro signed
    exact absurd (each '+' (List.mem_of_mem_head? signed)) (by decide)
  have value : Nat.ofDigitChars 10 (Nat.toDigits 10 n.toNat) 0 = n.toNat :=
    Nat.ofDigitChars_toDigits (by decide) (by decide)
  have plain : (Nat.toDigits 10 n.toNat).any (!·.isDigit) = false := by
    simpa using each
  unfold word?
  dsimp only
  rw [digits, if_neg unsigned, value, plain]
  simp [Nat.toDigits_ne_nil, n.toNat_lt]

theorem readText_encode (s : String) : readText (Utf8.encode s) = .ok s := by
  rw [readText, Utf8.text?_encode]

theorem readWord_digits (n : UInt64) : readWord (Utf8.encode (toString n.toNat)) = .ok n := by
  simp only [readWord, readText_encode, bind, Except.bind, word?_digits]

theorem readBoolean_toString (b : Bool) : readBoolean (Utf8.encode (toString b)) = .ok b := by
  cases b <;> decide

theorem give_text (a : Arguments) (x : Assignment) :
    give a x.target [Utf8.encode x.text] = assign a x := by
  have given {β : Type} {o : Option β} (onward : Arguments) : (once o >>= fun _ => .ok onward) =
      if o.isSome then .error .argumentConflict else .ok onward := by
    cases o <;> rfl
  cases x with
  | workers n =>
    rw [Assignment.text, Assignment.target, give, readWord_digits]
    exact given _
  | timeout n =>
    rw [Assignment.text, Assignment.target, give, readWord_digits]
    exact given _
  | exclude pattern =>
    rw [Assignment.text, Assignment.target, give, List.mapM_cons, readText_encode]
    rfl
  | flag f b =>
    rw [Assignment.text, Assignment.target, give, readBoolean_toString]
    exact given _

theorem named (x : Assignment) : ∃ d name, x.target.long? = some name ∧ Utf8.encode name ≠ [] ∧
    equals ∉ Utf8.encode name ∧ long? (Utf8.encode name) = some d ∧ d.target? = some x.target := by
  cases x with
  | flag f b => cases f <;> exact ⟨_, _, rfl, by decide, by decide, rfl, rfl⟩
  | workers | timeout | exclude => exact ⟨_, _, rfl, by decide, by decide, rfl, rfl⟩

theorem splitAtEquals_append {name : Bytes} (clean : equals ∉ name) (value : Bytes) :
    splitAtEquals (name ++ equals :: value) = (name, some value) := by
  induction name with
  | nil => rfl
  | cons b name ih =>
    rw [List.mem_cons, not_or] at clean
    rw [List.cons_append, splitAtEquals, if_neg (Ne.symm clean.1), ih clean.2]

theorem ofArgument_argument (x : Assignment) : ∃ d,
    Token.ofArgument x.argument = .option d (some (Utf8.encode x.text)) ∧ d.target? = some x.target := by
  obtain ⟨d, name, long, nonempty, clean, declared, target⟩ := named x
  have bytes : x.argument = dash :: dash :: (Utf8.encode name ++ equals :: Utf8.encode x.text) := by
    rw [Assignment.argument, written, long, Option.getD_some, encode_append, encode_append, encode_append,
      List.append_assoc, List.append_assoc]
    rfl
  refine ⟨d, ?_, target⟩
  rw [bytes, Token.ofArgument, if_neg (by simp), if_neg (by simp), if_neg (by simp), Token.ofLong,
    splitAtEquals_append clean, declared]

def State.idle (a : Arguments) : State := { arguments := a }

theorem parseFrom_argument (a : Arguments) (x : Assignment) (rest : List Bytes) :
    parseFrom (.idle a) (x.argument :: rest) = assign a x >>= fun a => parseFrom (.idle a) rest := by
  obtain ⟨d, token, target⟩ := ofArgument_argument x
  have taken : (State.idle a).option d (some (Utf8.encode x.text)) = assign a x >>= fun a => .ok (.idle a) := by
    rw [← give_text]
    unfold State.option
    rw [target]
    rfl
  rw [parseFrom, token]
  change ((State.idle a).option d (some (Utf8.encode x.text)) >>= fun s => parseFrom s rest) = _
  rw [taken, bind_assoc]
  rfl

theorem parseFrom_arguments (xs : List Assignment) (a : Arguments) {directory : Bytes}
    (nonempty : directory ≠ []) :
    parseFrom (.idle a) (xs.map Assignment.argument ++ [Utf8.encode "--", directory]) =
      xs.foldlM assign a >>= fun a => .ok { a with directory := ⟨directory⟩ } := by
  induction xs generalizing a with
  | nil =>
    have token : Token.ofArgument (Utf8.encode "--") = .endOfOptions := rfl
    rw [List.map_nil, List.nil_append, parseFrom, token]
    change (give a .directory [directory]) = _
    rw [give, if_neg (by simpa using nonempty)]
    rfl
  | cons x xs ih =>
    rw [List.map_cons, List.cons_append, parseFrom_argument, List.foldlM_cons, bind_assoc]
    exact bind_congr fun a => ih a

section Order
variable {a : Arguments} {x y : Assignment}

theorem flag?_setFlag (f g : Flag) (b : Bool) :
    (a.setFlag f b).flag? g = if f = g then some b else a.flag? g := by
  cases f <;> cases g <;> rfl

theorem setFlag_comm {f g : Flag} (apart : f ≠ g) (b c : Bool) :
    (a.setFlag f b).setFlag g c = (a.setFlag g c).setFlag f b := by
  cases f <;> cases g <;> first | rfl | exact absurd rfl apart

theorem isGiven_put (patternless : (x.isPattern && y.isPattern) = false) :
    y.isGiven (x.put a) = (decide (x.target = y.target) || y.isGiven a) := by
  cases x with
  | flag f b =>
    cases y with
    | flag g c =>
      change ((a.setFlag f b).flag? g).isSome = _
      rw [flag?_setFlag]
      by_cases same : f = g <;> simp [same, Assignment.target, Assignment.isGiven]
    | workers | timeout | exclude => cases f <;> rfl
  | workers n | timeout n | exclude pattern =>
    cases y with
    | flag g c => cases g <;> rfl
    | workers | timeout | exclude => first | rfl | cases patternless

theorem put_comm (apart : x.target ≠ y.target) : y.put (x.put a) = x.put (y.put a) := by
  cases x with
  | flag f b =>
    cases y with
    | flag g c => exact setFlag_comm (fun same => apart (congrArg Target.flag same)) b c
    | workers | timeout | exclude => cases f <;> rfl
  | workers n | timeout n | exclude pattern =>
    cases y with
    | flag g c => cases g <;> rfl
    | workers | timeout | exclude => first | rfl | exact absurd rfl apart

-- Two options that are not both patterns may change places, even if both are for one target: the second
-- of them is refused in either order.
theorem assign_comm (x y : Assignment) (a : Arguments) (patternless : (x.isPattern && y.isPattern) = false) :
    (assign a x >>= (assign · y)) = (assign a y >>= (assign · x)) := by
  have both {x y : Assignment} (patternless : (x.isPattern && y.isPattern) = false) :
      (assign a x >>= (assign · y)) =
        if x.isGiven a || y.isGiven a || decide (x.target = y.target) then .error .argumentConflict
        else .ok (y.put (x.put a)) := by
    unfold assign
    cases first : x.isGiven a with
    | true => rfl
    | false =>
      change (if y.isGiven (x.put a) then _ else _) = _
      rw [isGiven_put patternless, Bool.or_comm (decide _), Bool.false_or]
  rw [both patternless, both ((Bool.and_comm _ _).trans patternless), Bool.or_comm (x.isGiven a)]
  by_cases same : x.target = y.target
  · simp [same]
  · rw [put_comm same, decide_eq_false same, decide_eq_false (Ne.symm same)]

end Order

section Canonical
variable {a s : Arguments}

def copyFlag (a s : Arguments) : Flag → Arguments
  | .followLinks => { s with followLinks := a.followLinks }
  | .parallelWalk => { s with parallelWalk := a.parallelWalk }
  | .keepGoing => { s with keepGoing := a.keepGoing }
  | .skipUnreadable => { s with skipUnreadable := a.skipUnreadable }
  | .json => { s with json := a.json }
  | .verbose => { s with verbose := a.verbose }

theorem flag?_copyFlag {f g : Flag} (apart : f ≠ g) : (copyFlag a s f).flag? g = s.flag? g := by
  cases f <;> cases g <;> first | rfl | exact absurd rfl apart

theorem foldlM_flag {f : Flag} (free : s.flag? f = none) :
    ((a.flag? f).map (.flag f)).toList.foldlM assign s = .ok (copyFlag a s f) := by
  cases told : a.flag? f with
  | none =>
    have same : copyFlag a s f = s := by
      cases s
      cases f <;> simp_all [copyFlag, Arguments.flag?]
    rw [same]
    rfl
  | some b =>
    have same : copyFlag a s f = s.setFlag f b := by
      cases f <;> simp_all [copyFlag, Arguments.flag?, Arguments.setFlag]
    have absent : (Assignment.flag f b).isGiven s = false := by rw [Assignment.isGiven, free]; rfl
    rw [same, Option.map_some, Option.toList_some, List.foldlM_cons, assign, absent]
    rfl

theorem foldlM_flags {fs : List Flag} (distinct : fs.Nodup) (free : ∀ f ∈ fs, s.flag? f = none) :
    (fs.flatMap fun f => ((a.flag? f).map (.flag f)).toList).foldlM assign s =
      .ok (fs.foldl (copyFlag a) s) := by
  induction fs generalizing s with
  | nil => rfl
  | cons f fs ih =>
    obtain ⟨new, distinct⟩ := List.nodup_cons.mp distinct
    obtain ⟨first, later⟩ := List.forall_mem_cons.mp free
    have free : ∀ g ∈ fs, (copyFlag a s f).flag? g = none := by
      intro g own
      have apart : f ≠ g := by
        rintro rfl
        exact new own
      rw [flag?_copyFlag apart, later g own]
    rw [List.flatMap_cons, List.foldlM_append, foldlM_flag first]
    exact ih distinct free

theorem foldlM_patterns (patterns : List String) (s : Arguments) :
    (patterns.map .exclude).foldlM assign s = .ok { s with exclude := s.exclude ++ patterns } := by
  induction patterns generalizing s with
  | nil => rw [List.append_nil]; rfl
  | cons p patterns ih =>
    rw [List.map_cons, List.foldlM_cons]
    change (patterns.map .exclude).foldlM assign { s with exclude := s.exclude ++ [p] } = _
    rw [ih]
    simp

theorem foldlM_assignments (a : Arguments) :
    (assignments a).foldlM assign {} = .ok { a with directory := ({} : Arguments).directory } := by
  have next (s : Arguments) (rest : Arguments → Except UsageError Arguments) : (.ok s >>= rest) = rest s := rfl
  have workers : (a.workers.map .workers).toList.foldlM assign {} = .ok { workers := a.workers } := by
    cases a.workers <;> rfl
  have timeout : (a.timeoutSeconds.map .timeout).toList.foldlM assign { workers := a.workers } =
      .ok { workers := a.workers, timeoutSeconds := a.timeoutSeconds } := by
    cases a.timeoutSeconds <;> rfl
  rw [assignments, List.foldlM_append, List.foldlM_append, List.foldlM_append, workers, next, timeout, next,
    foldlM_patterns, next, foldlM_flags (by decide) (fun f _ => by cases f <;> rfl)]
  rfl

end Canonical

def isPattern (arg : Bytes) : Bool := (Utf8.encode "--exclude=").isPrefixOf arg

theorem isPattern_argument (x : Assignment) : isPattern x.argument = x.isPattern := by
  have split (name : String) (long : x.target.long? = some name) :
      x.argument = Utf8.encode ("--" ++ name ++ "=") ++ Utf8.encode x.text := by
    rw [Assignment.argument, written, long, Option.getD_some, ← encode_append]
  cases x with
  | exclude pattern =>
    rw [split _ rfl]
    exact List.isPrefixOf_iff_prefix.mpr (List.prefix_append ..)
  | flag f b => cases f <;> (rw [split _ rfl]; rfl)
  | workers | timeout => rw [split _ rfl]; rfl

theorem argument_injective {x y : Assignment} (same : x.argument = y.argument) : x = y := by
  obtain ⟨d, token, aim⟩ := ofArgument_argument x
  obtain ⟨e, other, also⟩ := ofArgument_argument y
  rw [same, other] at token
  obtain ⟨rfl, bytes⟩ := Token.option.inj token
  have target : x.target = y.target := Option.some.inj (aim.symm.trans also)
  have text : x.text = y.text := by
    have read := congrArg Utf8.text? (Option.some.inj bytes)
    rw [Utf8.text?_encode, Utf8.text?_encode] at read
    exact (Option.some.inj read).symm
  have number {m n : UInt64} (same : toString m.toNat = toString n.toNat) : m = n := by
    have read := word?_digits m
    rw [same, word?_digits] at read
    exact (Option.some.inj read).symm
  have truth {b c : Bool} (same : toString b = toString c) : b = c := by
    cases b <;> cases c <;> first | rfl | exact absurd same (by decide)
  cases x <;> cases y <;> cases target
  case workers.workers | timeout.timeout => rw [number text]
  case exclude.exclude => exact congrArg _ text
  case flag.flag => rw [truth text]

theorem exists_assignments {args : List Bytes} {xs : List Assignment}
    (perm : args.Perm (xs.map Assignment.argument))
    (order : args.filter isPattern = (xs.map Assignment.argument).filter isPattern) :
    ∃ ys : List Assignment, args = ys.map Assignment.argument ∧ ys.Perm xs ∧
      ys.filter Assignment.isPattern = xs.filter Assignment.isPattern := by
  have each : List.Forall₂ (fun arg x => arg = Assignment.argument x) (xs.map Assignment.argument) xs :=
    List.forall₂_map_left_iff.mpr (List.forall₂_same.mpr fun _ _ => rfl)
  obtain ⟨ys, related, perm⟩ := List.perm_comp_forall₂ perm each
  have images : args = ys.map Assignment.argument := by
    rw [← List.forall₂_eq_eq_eq]
    exact List.forall₂_map_right_iff.mpr related
  refine ⟨ys, images, perm, List.map_injective_iff.mpr (fun _ _ => argument_injective) ?_⟩
  have patterns (zs : List Assignment) :
      (zs.map Assignment.argument).filter isPattern =
        (zs.filter Assignment.isPattern).map Assignment.argument := by
    have same : isPattern ∘ Assignment.argument = Assignment.isPattern := funext isPattern_argument
    rw [List.filter_map, same]
  rw [← patterns, ← patterns, ← images, order]

-- A command line is read back from how it is written, and from any other order of its options that keeps
-- the order of the patterns.
theorem parse_print (a : Arguments) (nonempty : a.directory.bytes ≠ []) :
    parse (print a) = .ok a ∧
      ∀ args, args.Perm (options a) → args.filter isPattern = (options a).filter isPattern →
        parse (args ++ [Utf8.encode "--", a.directory.bytes]) = .ok a := by
  have all (args : List Bytes) (perm : args.Perm (options a))
      (order : args.filter isPattern = (options a).filter isPattern) :
      parse (args ++ [Utf8.encode "--", a.directory.bytes]) = .ok a := by
    rw [options_eq] at perm order
    obtain ⟨xs, rfl, perm, order⟩ := exists_assignments perm order
    rw [parse]
    change parseFrom (.idle {}) _ = _
    rw [parseFrom_arguments xs {} nonempty,
      foldlM_reordered (fun x _ y _ apart s => assign_comm x y s apart) perm order, foldlM_assignments]
    rfl
  exact ⟨all _ (.refl _) rfl, all⟩

def disguised : Arguments where
  directory := Path.ofString "--json"
  workers := some 18446744073709551615
  exclude := ["--", "-e=x"]
  json := some false

def shuffled : List Bytes :=
  ["--json=false", "--exclude=--", "--workers=18446744073709551615", "--exclude=-e=x"].map Utf8.encode

theorem parse_print_disguised :
    disguised.directory.bytes ≠ [] ∧ parse (print disguised) = .ok disguised ∧
      shuffled.Perm (options disguised) ∧
      shuffled.filter isPattern = (options disguised).filter isPattern ∧
      parse (shuffled ++ [Utf8.encode "--", Utf8.encode "--json"]) = .ok disguised := by
  have nonempty : disguised.directory.bytes ≠ [] := by decide
  have perm : shuffled.Perm (options disguised) := by decide
  have order : shuffled.filter isPattern = (options disguised).filter isPattern := by decide
  obtain ⟨printed, reordered⟩ := parse_print disguised nonempty
  exact ⟨nonempty, printed, perm, order, reordered shuffled perm order⟩

end CommandLine
end TreeDigest

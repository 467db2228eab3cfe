import Mathlib.Data.List.Basic

/-!
# Paths and the files they name

`Path::join` builds the store's paths as strings (`joinPath`), and `file_stem` and `extension`
cut a file name at its last dot. The file system resolves a path to the file it names: the path is
cut at each `/` (`splitSlash`) and walked from the root when it starts with `/`, from the working
directory otherwise; an empty component and `.` stay where they are, `..` goes up (not above the
root) and a name goes down (`pushComponent`, `walk`). Two paths name one file exactly when they
walk to the same components, so a file is known by the key those components spell (`keyOf`).
Symbolic links are not modelled, so `..` undoes the component before it.

Joining a component without `/` to a path walks one step further from where the path leads
(`walk_joinPath`), and keys of walked paths are equal only for equal components (`keyOf_inj`).
-/

set_option autoImplicit false

namespace Knirvbase

/-! ## `std::path` on strings -/

/-- The separator `Path::join` puts after `base`: none after an empty path or a trailing `/`. -/
def separator (base : String) : String :=
  if base.data = [] ∨ base.data.getLast? = some '/' then "" else "/"

/-- `Path::join` on strings: an absolute `path` replaces `base`. -/
def joinPath (base path : String) : String :=
  match path.data with
  | '/' :: _ => path
  | _ => base ++ separator base ++ path

theorem joinPath_of_absolute {base path : String} (h : path.data.head? = some '/') :
    joinPath base path = path := by
  unfold joinPath
  cases hp : path.data with
  | nil => simp [hp] at h
  | cons c t => simp only [hp, List.head?_cons, Option.some.injEq] at h; subst h; rfl

theorem joinPath_of_relative {base path : String} (h : path.data.head? ≠ some '/') :
    joinPath base path = base ++ separator base ++ path := by
  unfold joinPath
  split <;> simp_all

/-- After a path whose last character is not `/`, `Path::join` puts a `/`. -/
theorem separator_of_getLast {base : String} {c : Char} (h : base.data.getLast? = some c)
    (hc : c ≠ '/') : separator base = "/" := by
  unfold separator
  rw [if_neg]
  rintro (h' | h')
  · simp [h'] at h
  · exact hc (Option.some.inj (h.symm.trans h'))

/-- `rsplit_file_at_dot` of `std::path`: a file name cut at its last `.` into the parts before
and after it; `..`, and a name whose only `.` comes first, are not cut. -/
def rsplit_file_at_dot (file : String) : Option String × Option String :=
  if file = ".." then (some file, none)
  else
    match file.data.reverse.dropWhile (· != '.') with
    | [] => (none, some file)
    | _ :: before =>
      if before = [] then (some file, none)
      else (some ⟨before.reverse⟩, some ⟨(file.data.reverse.takeWhile (· != '.')).reverse⟩)

/-- `Path::file_stem` of a file name: `before.or(after)`. -/
def file_stem (file : String) : Option String :=
  (rsplit_file_at_dot file).1.or (rsplit_file_at_dot file).2

/-- `Path::extension` of a file name: `before.and(after)`. -/
def extension (file : String) : Option String :=
  (rsplit_file_at_dot file).1.bind fun _ => (rsplit_file_at_dot file).2

/-- A name `Path::join` keeps as a path component of its own: not empty, without `/`, and
neither `.` nor `..`, which the file system resolves. -/
structure PlainName (c : String) : Prop where
  nonempty : c.data ≠ []
  no_slash : '/' ∉ c.data
  not_dot : c ≠ "."
  not_dotdot : c ≠ ".."

theorem PlainName.head_ne {c : String} (h : PlainName c) : c.data.head? ≠ some '/' :=
  fun he => h.no_slash (List.mem_of_mem_head? he)

/-- Two paths cut at their first `/`. -/
theorem append_slash_cancel {x y : List Char} :
    ∀ {a b : List Char}, '/' ∉ a → '/' ∉ b → a ++ '/' :: x = b ++ '/' :: y → a = b ∧ x = y
  | [], [], _, _, h => ⟨rfl, (List.cons.inj h).2⟩
  | [], c :: b, _, hb, h => by
    obtain ⟨rfl, -⟩ := List.cons.inj h
    exact absurd (List.mem_cons_self _ _) hb
  | c :: a, [], ha, _, h => by
    obtain ⟨rfl, -⟩ := List.cons.inj h
    exact absurd (List.mem_cons_self _ _) ha
  | c :: a, c' :: b, ha, hb, h => by
    obtain ⟨rfl, h'⟩ := List.cons.inj h
    obtain ⟨rfl, rfl⟩ :=
      append_slash_cancel (mt (List.mem_cons_of_mem _) ha) (mt (List.mem_cons_of_mem _) hb) h'
    exact ⟨rfl, rfl⟩

/-! ## Resolution -/

/-- A path component that names a directory entry: not empty, without `/`, neither `.` nor
`..`. -/
structure Normal (c : List Char) : Prop where
  nonempty : c ≠ []
  no_slash : '/' ∉ c
  not_dot : c ≠ ['.']
  not_dotdot : c ≠ ['.', '.']

theorem PlainName.normal {c : String} (h : PlainName c) : Normal c.data :=
  ⟨h.nonempty, h.no_slash, fun e => h.not_dot (String.ext e), fun e => h.not_dotdot (String.ext e)⟩

/-- A path cut at each `/`: `"/a//b"` is `["", "a", "", "b"]`. -/
def splitSlash : List Char → List (List Char)
  | [] => [[]]
  | c :: cs =>
    if c = '/' then [] :: splitSlash cs
    else match splitSlash cs with
      | [] => [[c]]
      | p :: ps => (c :: p) :: ps

/-- One component walked from the directory `dir`, whose components are listed from the last: an
empty component and `.` stay, `..` goes up (the root is its own parent), a name goes down. -/
def pushComponent (dir : List (List Char)) (c : List Char) : List (List Char) :=
  if c = [] ∨ c = ['.'] then dir
  else if c = ['.', '.'] then dir.tail
  else c :: dir

/-- Where a lookup of `path` starts: the root when it starts with `/`, the working directory `cwd`
otherwise. -/
def start (cwd : List (List Char)) (path : String) : List (List Char) :=
  if path.data.head? = some '/' then [] else cwd

/-- The components of the file `path` names, from the last. -/
def walk (cwd : List (List Char)) (path : String) : List (List Char) :=
  (splitSlash path.data).foldl pushComponent (start cwd path)

/-- The directories a walk from `dir` through the components `cs` stands in: `dir`, then where
each component leads. -/
def visited (dir : List (List Char)) : List (List Char) → List (List (List Char))
  | [] => [dir]
  | c :: cs => dir :: visited (pushComponent dir c) cs

/-- Every directory a walk along `path` stands in, the last being where it leads. -/
def chain (cwd : List (List Char)) (path : String) : List (List (List Char)) :=
  visited (start cwd path) (splitSlash path.data)

/-- The directories a lookup of `path` passes through, each of which must be a directory: where it
starts and where each component but the last leads. -/
def passes (cwd : List (List Char)) (path : String) : List (List (List Char)) :=
  visited (start cwd path) (splitSlash path.data).dropLast

/-- The components `Path::components` yields after the root: those other than empty and `.`;
`create_dir_all` creates the directories they lead to. -/
def lexComponents (path : String) : List (List Char) :=
  (splitSlash path.data).filter fun c => !(c = [] ∨ c = ['.'])

/-- Components from the first, each after a `/`. -/
def render : List (List Char) → List Char
  | [] => []
  | c :: cs => '/' :: (c ++ render cs)

/-- The key of the file whose components, from the last, are `dir`: `"/a/b"` for `["b", "a"]`,
and `""` for the root. -/
def keyOf (dir : List (List Char)) : String := ⟨render dir.reverse⟩

/-- The key of the directory that holds the entry with the key `k`: `k` up to its last `/`. -/
def parentKey (k : String) : String := ⟨((k.data.reverse.dropWhile (· != '/')).drop 1).reverse⟩

/-- The name of the entry with the key `k` in its directory: `k` after its last `/`. -/
def lastName (k : String) : String := ⟨(k.data.reverse.takeWhile (· != '/')).reverse⟩

/-! ### Splitting -/

theorem splitSlash_ne_nil : ∀ l : List Char, splitSlash l ≠ []
  | [] => nofun
  | c :: cs => by
    unfold splitSlash
    split_ifs
    · exact nofun
    · split <;> exact nofun

theorem splitSlash_append_slash (q : List Char) :
    ∀ p : List Char, splitSlash (p ++ '/' :: q) = splitSlash p ++ splitSlash q
  | [] => by simp [splitSlash]
  | c :: p => by
    rw [List.cons_append]
    simp only [splitSlash]
    rw [splitSlash_append_slash q p]
    split_ifs
    · rfl
    · cases h : splitSlash p with
      | nil => exact absurd h (splitSlash_ne_nil p)
      | cons x xs => rfl

theorem splitSlash_of_not_mem : ∀ {q : List Char}, '/' ∉ q → splitSlash q = [q]
  | [], _ => rfl
  | c :: q, h => by
    have hc : c ≠ '/' := fun e => h (e ▸ List.mem_cons_self _ _)
    rw [splitSlash, if_neg hc, splitSlash_of_not_mem (mt (List.mem_cons_of_mem _) h)]

/-- The components `splitSlash` cuts hold no `/`. -/
theorem not_mem_of_mem_splitSlash : ∀ {l c : List Char}, c ∈ splitSlash l → '/' ∉ c
  | [], c, h => by simp only [splitSlash, List.mem_singleton] at h; subst h; exact List.not_mem_nil _
  | x :: l, c, h => by
    unfold splitSlash at h
    split_ifs at h with hx
    · rcases List.mem_cons.1 h with rfl | h
      · exact List.not_mem_nil _
      · exact not_mem_of_mem_splitSlash h
    · split at h
      · simp only [List.mem_singleton] at h
        subst h
        simpa using Ne.symm hx
      · rename_i p ps hs
        rcases List.mem_cons.1 h with rfl | h
        · have := not_mem_of_mem_splitSlash (l := l) (c := p) (by rw [hs]; exact .head _)
          simpa [Ne.symm hx] using this
        · exact not_mem_of_mem_splitSlash (l := l) (by rw [hs]; exact .tail _ h)

/-! ### Walking -/

@[simp] theorem pushComponent_nil (dir : List (List Char)) : pushComponent dir [] = dir := by
  simp [pushComponent]

theorem pushComponent_normal {c : List Char} (h : Normal c) (dir : List (List Char)) :
    pushComponent dir c = c :: dir := by
  simp [pushComponent, h.nonempty, h.not_dot, h.not_dotdot]

/-- A component without `/` leaves the directory, goes up, or goes down by that name. -/
theorem pushComponent_cases (dir : List (List Char)) {c : List Char} (hc : '/' ∉ c) :
    pushComponent dir c = dir ∨ pushComponent dir c = dir.tail ∨
      (Normal c ∧ pushComponent dir c = c :: dir) := by
  unfold pushComponent
  split_ifs with h₁ h₂
  · exact .inl rfl
  · exact .inr (.inl rfl)
  · push_neg at h₁
    exact .inr (.inr ⟨⟨h₁.1, hc, h₁.2, h₂⟩, rfl⟩)

/-- Walking components without `/` from a directory of names reaches a directory of names. -/
theorem foldl_pushComponent_normal :
    ∀ {cs : List (List Char)} {dir : List (List Char)}, (∀ c ∈ cs, '/' ∉ c) →
      (∀ c ∈ dir, Normal c) → ∀ c ∈ cs.foldl pushComponent dir, Normal c
  | [], _, _, hd => hd
  | c :: cs, dir, hcs, hd => by
    rw [List.foldl_cons]
    refine @foldl_pushComponent_normal cs (pushComponent dir c) (fun x hx => hcs x (.tail _ hx))
      fun x hx => ?_
    rcases pushComponent_cases dir (hcs c (.head _)) with h | h | ⟨hn, h⟩ <;> rw [h] at hx
    · exact hd x hx
    · exact hd x (List.mem_of_mem_tail hx)
    · rcases List.mem_cons.1 hx with rfl | hx
      · exact hn
      · exact hd x hx

/-- From a working directory of names, every path walks to a directory of names. -/
theorem walk_normal {cwd : List (List Char)} (hcwd : ∀ c ∈ cwd, Normal c) (path : String) :
    ∀ c ∈ walk cwd path, Normal c := by
  refine foldl_pushComponent_normal (fun _ h => not_mem_of_mem_splitSlash h) ?_
  unfold start
  split
  · exact nofun
  · exact hcwd

/-! ### Where `Path::join` leads -/

/-- A path is cut at its last `/`, or has none. -/
theorem eq_append_slash_or_not_mem (l : List Char) :
    '/' ∉ l ∨ ∃ p q, l = p ++ '/' :: q ∧ '/' ∉ q := by
  induction l using List.reverseRecOn with
  | nil => exact .inl (List.not_mem_nil _)
  | append_singleton l x ih =>
    by_cases hx : x = '/'
    · exact .inr ⟨l, [], by rw [hx], List.not_mem_nil _⟩
    · rcases ih with h | ⟨p, q, rfl, hq⟩
      · exact .inl (by simp [h, Ne.symm hx])
      · exact .inr ⟨p, q ++ [x], by simp, by simp [hq, Ne.symm hx]⟩

/-- The last component of a path is empty exactly when the path is empty or ends in `/`. -/
theorem getLast?_splitSlash_eq_nil (l : List Char) :
    (splitSlash l).getLast? = some [] ↔ l = [] ∨ l.getLast? = some '/' := by
  rcases eq_append_slash_or_not_mem l with hl | ⟨p, q, rfl, hq⟩
  · rw [splitSlash_of_not_mem hl, List.getLast?_singleton, Option.some.injEq]
    exact ⟨.inl, fun h => h.resolve_right fun h' => hl (List.mem_of_getLast?_eq_some h')⟩
  · rw [splitSlash_append_slash, splitSlash_of_not_mem hq, List.getLast?_append,
      List.getLast?_singleton]
    cases q with
    | nil => simp
    | cons y ys =>
      refine ⟨fun h => by simp at h, fun h => ?_⟩
      rw [show p ++ '/' :: y :: ys = (p ++ ['/']) ++ y :: ys by simp,
        List.getLast?_append_of_ne_nil _ (List.cons_ne_nil _ _)] at h
      exact (hq (List.mem_of_getLast?_eq_some (h.resolve_left (by simp)))).elim

/-- The components `Path::join` keeps of its base: all but a last empty one. -/
def trimEmpty (l : List (List Char)) : List (List Char) :=
  if l.getLast? = some [] then l.dropLast else l

/-- `Path::join` with a component without `/` adds that component to those of the base. -/
theorem splitSlash_joinPath (base : String) {c : String} (hc : '/' ∉ c.data) :
    splitSlash (joinPath base c).data = trimEmpty (splitSlash base.data) ++ [c.data] := by
  have hhead : c.data.head? ≠ some '/' := fun h => hc (List.mem_of_mem_head? h)
  rw [joinPath_of_relative hhead, String.data_append, String.data_append]
  unfold trimEmpty separator
  by_cases hs : base.data = [] ∨ base.data.getLast? = some '/'
  · rw [if_pos hs, if_pos ((getLast?_splitSlash_eq_nil _).2 hs)]
    rcases hs with hb | hb
    · simp [hb, splitSlash, splitSlash_of_not_mem hc]
    · rw [← List.dropLast_append_getLast? _ hb]
      simp [splitSlash_append_slash, splitSlash_of_not_mem hc, splitSlash]
  · rw [if_neg hs, if_neg (mt (getLast?_splitSlash_eq_nil _).1 hs)]
    simp only [show "/".data = ['/'] from rfl, show "".data = [] from rfl, List.append_nil,
      List.append_assoc, List.singleton_append, splitSlash_append_slash, splitSlash_of_not_mem hc]

theorem start_joinPath (cwd : List (List Char)) (base : String) {c : String} (hc : '/' ∉ c.data) :
    start cwd (joinPath base c) = start cwd base := by
  have hhead : c.data.head? ≠ some '/' := fun h => hc (List.mem_of_mem_head? h)
  unfold start
  rw [joinPath_of_relative hhead, String.data_append, String.data_append]
  by_cases hb : base.data = []
  · simp [hb, separator, hhead]
  · rw [List.append_assoc, List.head?_append_of_ne_nil _ hb]

theorem visited_append_singleton (c : List Char) :
    ∀ (dir : List (List Char)) (cs : List (List Char)),
      visited dir (cs ++ [c]) = visited dir cs ++ [pushComponent (cs.foldl pushComponent dir) c]
  | _, [] => rfl
  | dir, x :: cs => by
    rw [List.cons_append, visited, visited, visited_append_singleton c _ cs, List.foldl_cons,
      List.cons_append]

theorem foldl_mem_visited : ∀ (dir : List (List Char)) (cs : List (List Char)),
    cs.foldl pushComponent dir ∈ visited dir cs
  | _, [] => .head _
  | dir, c :: cs => .tail _ (foldl_mem_visited (pushComponent dir c) cs)

theorem self_mem_visited (dir : List (List Char)) : ∀ cs, dir ∈ visited dir cs
  | [] => .head _
  | _ :: _ => .head _

theorem foldl_trimEmpty (dir : List (List Char)) (l : List (List Char)) :
    (trimEmpty l).foldl pushComponent dir = l.foldl pushComponent dir := by
  unfold trimEmpty
  split_ifs with h
  · conv_rhs => rw [← List.dropLast_append_getLast? _ h]
    rw [List.foldl_append, List.foldl_cons, List.foldl_nil, pushComponent_nil]
  · rfl

theorem mem_visited_trimEmpty {st dir : List (List Char)} {l : List (List Char)} :
    st ∈ visited dir (trimEmpty l) ↔ st ∈ visited dir l := by
  unfold trimEmpty
  split_ifs with h
  · conv_rhs => rw [← List.dropLast_append_getLast? _ h]
    rw [visited_append_singleton, pushComponent_nil, List.mem_append, List.mem_singleton]
    exact ⟨.inl, fun h' => h'.elim id fun e => e ▸ foldl_mem_visited _ _⟩
  · rfl

/-- `Path::join` with a component without `/` walks one step further from where the base leads. -/
theorem walk_joinPath (cwd : List (List Char)) (base : String) {c : String} (hc : '/' ∉ c.data) :
    walk cwd (joinPath base c) = pushComponent (walk cwd base) c.data := by
  rw [walk, walk, splitSlash_joinPath base hc, start_joinPath cwd base hc, List.foldl_append,
    foldl_trimEmpty]
  rfl

/-- A lookup of a path joined with a component passes through where the walk along the base
stands. -/
theorem mem_passes_joinPath {cwd st : List (List Char)} (base : String) {c : String}
    (hc : '/' ∉ c.data) : st ∈ passes cwd (joinPath base c) ↔ st ∈ chain cwd base := by
  rw [passes, chain, splitSlash_joinPath base hc, start_joinPath cwd base hc, List.dropLast_concat,
    mem_visited_trimEmpty]

/-- The walk along a path stands where its lookup passes, and then where it leads. -/
theorem chain_eq (cwd : List (List Char)) (path : String) :
    chain cwd path = passes cwd path ++ [walk cwd path] := by
  rw [chain, passes, walk]
  conv_lhs => rw [← List.dropLast_append_getLast (splitSlash_ne_nil path.data)]
  rw [visited_append_singleton]
  congr 2
  conv_rhs => rw [← List.dropLast_append_getLast (splitSlash_ne_nil path.data)]
  rw [List.foldl_append, List.foldl_cons, List.foldl_nil]

theorem mem_chain_joinPath {cwd st : List (List Char)} (base : String) {c : String}
    (hc : '/' ∉ c.data) :
    st ∈ chain cwd (joinPath base c) ↔ st ∈ chain cwd base ∨ st = walk cwd (joinPath base c) := by
  rw [chain_eq, List.mem_append, List.mem_singleton, mem_passes_joinPath base hc]

/-! ### The components `create_dir_all` creates -/

theorem mem_visited_filter {st : List (List Char)} :
    ∀ {dir : List (List Char)} {cs : List (List Char)},
      st ∈ visited dir (cs.filter fun c => !(c = [] ∨ c = ['.'])) ↔ st ∈ visited dir cs
  | _, [] => Iff.rfl
  | dir, c :: cs => by
    by_cases h : c = [] ∨ c = ['.']
    · have hpush : pushComponent dir c = dir := if_pos h
      rw [List.filter_cons_of_neg (by simp [decide_eq_true h]), mem_visited_filter, visited, hpush,
        List.mem_cons]
      exact ⟨.inr, fun h' => h'.elim (fun e => e ▸ self_mem_visited _ _) id⟩
    · rw [List.filter_cons_of_pos (by simp [decide_eq_false h]), visited, visited, List.mem_cons,
        List.mem_cons, mem_visited_filter]

theorem foldl_filter : ∀ (dir : List (List Char)) (cs : List (List Char)),
    (cs.filter fun c => !(c = [] ∨ c = ['.'])).foldl pushComponent dir = cs.foldl pushComponent dir
  | _, [] => rfl
  | dir, c :: cs => by
    by_cases h : c = [] ∨ c = ['.']
    · have hpush : pushComponent dir c = dir := if_pos h
      rw [List.filter_cons_of_neg (by simp [decide_eq_true h]), foldl_filter, List.foldl_cons, hpush]
    · rw [List.filter_cons_of_pos (by simp [decide_eq_false h]), List.foldl_cons, List.foldl_cons,
        foldl_filter]

/-- `create_dir_all` stands where the walk along the path stands. -/
theorem mem_visited_lexComponents {cwd st : List (List Char)} {path : String} :
    st ∈ visited (start cwd path) (lexComponents path) ↔ st ∈ chain cwd path :=
  mem_visited_filter

/-! ### Keys -/

theorem render_append (a b : List (List Char)) : render (a ++ b) = render a ++ render b := by
  induction a with
  | nil => rfl
  | cons c a ih => simp [render, ih]

@[simp] theorem keyOf_cons (c : List Char) (dir : List (List Char)) :
    (keyOf (c :: dir)).data = (keyOf dir).data ++ '/' :: c := by
  simp [keyOf, render_append, render]

@[simp] theorem keyOf_nil : keyOf [] = "" := rfl

theorem splitSlash_append_render {c : List Char} (hc : '/' ∉ c) :
    ∀ {a : List (List Char)}, (∀ x ∈ a, '/' ∉ x) → splitSlash (c ++ render a) = c :: a
  | [], _ => by rw [render, List.append_nil, splitSlash_of_not_mem hc]
  | x :: a, ha => by
    rw [render, splitSlash_append_slash, splitSlash_of_not_mem hc,
      splitSlash_append_render (ha x (.head _)) fun y hy => ha y (.tail _ hy)]
    rfl

theorem render_inj : ∀ {a b : List (List Char)}, (∀ x ∈ a, '/' ∉ x) → (∀ x ∈ b, '/' ∉ x) →
    render a = render b → a = b
  | [], [], _, _, _ => rfl
  | [], _ :: _, _, _, h => by simp [render] at h
  | _ :: _, [], _, _, h => by simp [render] at h
  | c :: a, c' :: b, ha, hb, h => by
    have h' := congrArg splitSlash (List.cons.inj h).2
    rwa [splitSlash_append_render (ha c (.head _)) fun x hx => ha x (.tail _ hx),
      splitSlash_append_render (hb c' (.head _)) fun x hx => hb x (.tail _ hx)] at h'

/-- Directories of components without `/` have the same key only when they are the same. -/
theorem keyOf_inj {a b : List (List Char)} (ha : ∀ x ∈ a, '/' ∉ x) (hb : ∀ x ∈ b, '/' ∉ x)
    (h : keyOf a = keyOf b) : a = b :=
  List.reverse_injective (render_inj (fun x hx => ha x (List.mem_reverse.1 hx))
    (fun x hx => hb x (List.mem_reverse.1 hx)) (congrArg String.data h))

theorem keyOf_cons_ne_nil (c : List Char) (dir : List (List Char)) : keyOf (c :: dir) ≠ "" :=
  fun h => by simpa using congrArg String.data h

theorem dropWhile_append_of_not_mem {c : List Char} (hc : '/' ∉ c) (l : List Char) :
    (c ++ l).dropWhile (· != '/') = l.dropWhile (· != '/') := by
  induction c with
  | nil => rfl
  | cons x c ih =>
    have hx : x ≠ '/' := fun e => hc (e ▸ .head _)
    rw [List.cons_append, List.dropWhile_cons_of_pos (by simpa using hx), ih (mt (.tail _) hc)]

theorem takeWhile_append_slash {c : List Char} (hc : '/' ∉ c) (l : List Char) :
    (c ++ '/' :: l).takeWhile (· != '/') = c := by
  induction c with
  | nil => simp
  | cons x c ih =>
    have hx : x ≠ '/' := fun e => hc (e ▸ .head _)
    rw [List.cons_append, List.takeWhile_cons_of_pos (by simpa using hx), ih (mt (.tail _) hc)]

@[simp] theorem parentKey_keyOf_cons {c : List Char} (hc : '/' ∉ c) (dir : List (List Char)) :
    parentKey (keyOf (c :: dir)) = keyOf dir := by
  have hr : c.reverse.reverse = c := List.reverse_reverse c
  refine String.ext ?_
  simp only [parentKey, keyOf_cons, List.reverse_append, List.reverse_cons, List.append_assoc,
    List.singleton_append]
  rw [dropWhile_append_of_not_mem (by simpa using hc), List.dropWhile_cons_of_neg (by simp)]
  simp

@[simp] theorem lastName_keyOf_cons {c : List Char} (hc : '/' ∉ c) (dir : List (List Char)) :
    lastName (keyOf (c :: dir)) = ⟨c⟩ := by
  simp only [lastName, keyOf_cons, List.reverse_append, List.reverse_cons, List.append_assoc,
    List.singleton_append]
  rw [takeWhile_append_slash (by simpa using hc), List.reverse_reverse]

end Knirvbase

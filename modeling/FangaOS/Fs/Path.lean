import FangaOS.Lib.Text

/-! Path handling of `fs/path.rs`, on paths as lists of characters.  The results
of `normalize` are the normal paths, on which `parent` and `filename` undo
`join`. -/

namespace FangaOS.Path

def normalize (path : List Char) : Except String (List Char) :=
  if path.head? ≠ some '/' then .error "Path must be absolute after resolution"
  else
    let components := ((path.splitOn '/').filter fun component => !component.isEmpty).foldl
      (fun components component =>
        if component = ['.'] then components
        else if component = ['.', '.'] then components.dropLast
        else components ++ [component]) []
    if components.isEmpty then .ok ['/'] else .ok ('/' :: ['/'].intercalate components)

def parent (path : List Char) : Option (List Char) :=
  if path = ['/'] then none
  else
    let path := path.rdropWhile (· == '/')
    match Text.rfind '/' path with
    | some pos => if pos = 0 then some ['/'] else some (path.take pos)
    | none => none

def filename (path : List Char) : Option (List Char) :=
  if path = ['/'] then none
  else
    let path := path.rdropWhile (· == '/')
    match Text.rfind '/' path with
    | some pos => some (path.drop (pos + 1))
    | none => some path

def join (base component : List Char) : List Char :=
  if base.getLast? = some '/' then base ++ component else base ++ '/' :: component

/-! ### Normal paths -/

/-- A component of a normal path. -/
def ValidName (name : List Char) : Prop :=
  name ≠ [] ∧ '/' ∉ name

/-- `/` followed by the components joined by `/`. -/
def ofComponents (components : List (List Char)) : List Char :=
  '/' :: ['/'].intercalate components

def Normal (path : List Char) : Prop :=
  ∃ components, (∀ component ∈ components, ValidName component) ∧ path = ofComponents components

theorem intercalate_concat (components : List (List Char)) (nonempty : components ≠ [])
    (last : List Char) :
    ['/'].intercalate (components ++ [last]) = ['/'].intercalate components ++ '/' :: last := by
  induction components with
  | nil => exact absurd rfl nonempty
  | cons first rest ih =>
      cases rest with
      | nil => rw [List.cons_append, List.nil_append, List.intercalate_cons_cons,
          List.intercalate_singleton, List.intercalate_singleton, List.append_assoc]; rfl
      | cons second rest =>
          have unfolded : ['/'].intercalate ((first :: second :: rest) ++ [last]) =
              first ++ ['/'] ++ ['/'].intercalate ((second :: rest) ++ [last]) := by
            rw [List.cons_append, List.cons_append, List.intercalate_cons_cons]
          rw [unfolded, ih (List.cons_ne_nil _ _), List.intercalate_cons_cons]
          simp only [List.append_assoc]

theorem ofComponents_eq_append {components : List (List Char)} (nonempty : components ≠ []) :
    ∃ pre, ofComponents components = pre ++ components.getLast nonempty := by
  by_cases first : components.dropLast = []
  · refine ⟨['/'], ?_⟩
    conv_lhs => rw [← List.dropLast_append_getLast nonempty, first, List.nil_append]
    rw [ofComponents, List.intercalate_singleton]
    rfl
  · refine ⟨'/' :: ['/'].intercalate components.dropLast ++ ['/'], ?_⟩
    conv_lhs => rw [← List.dropLast_append_getLast nonempty]
    rw [ofComponents, intercalate_concat _ first]
    simp

theorem getLast?_ofComponents {components : List (List Char)}
    (valid : ∀ component ∈ components, ValidName component) (nonempty : components ≠ []) :
    (ofComponents components).getLast? ≠ some '/' := by
  obtain ⟨pre, split⟩ := ofComponents_eq_append nonempty
  have lastValid := valid _ (List.getLast_mem nonempty)
  rw [split, List.getLast?_append_of_ne_nil _ lastValid.1]
  exact fun isSlash => lastValid.2 (List.mem_of_getLast? isSlash)

theorem ofComponents_concat {components : List (List Char)}
    (valid : ∀ component ∈ components, ValidName component) (last : List Char) :
    ofComponents (components ++ [last]) = join (ofComponents components) last := by
  by_cases empty : components = []
  · subst empty
    rw [join, if_pos (show (ofComponents []).getLast? = some '/' from rfl), List.nil_append,
      ofComponents, List.intercalate_singleton]
    rfl
  · rw [join, if_neg (getLast?_ofComponents valid empty), ofComponents, ofComponents,
      intercalate_concat _ empty]
    rfl

theorem Normal.cases {path : List Char} (normal : Normal path) :
    path = ['/'] ∨ ∃ base name, Normal base ∧ ValidName name ∧ path = join base name := by
  obtain ⟨components, valid, rfl⟩ := normal
  by_cases empty : components = []
  · exact Or.inl (by rw [empty]; rfl)
  · right
    have initValid : ∀ component ∈ components.dropLast, ValidName component :=
      fun component member => valid component ((List.dropLast_sublist _).subset member)
    refine ⟨ofComponents components.dropLast, components.getLast empty,
      ⟨_, initValid, rfl⟩, valid _ (List.getLast_mem empty), ?_⟩
    rw [← ofComponents_concat initValid, List.dropLast_append_getLast]

theorem join_eq_append {base : List Char} (name : List Char) (normal : Normal base) :
    ∃ pre, Path.join base name = pre ++ '/' :: name ∧
      (pre = [] ∧ base = ['/'] ∨ pre = base ∧ base ≠ []) := by
  obtain ⟨components, valid, rfl⟩ := normal
  by_cases empty : components = []
  · subst empty
    exact ⟨[], by rw [join, if_pos (show (ofComponents []).getLast? = some '/' from rfl)]; rfl,
      Or.inl ⟨rfl, rfl⟩⟩
  · rw [join, if_neg (getLast?_ofComponents valid empty)]
    exact ⟨ofComponents components, rfl, Or.inr ⟨rfl, List.cons_ne_nil _ _⟩⟩

theorem rdropWhile_join {base name : List Char} (normal : Normal base) (valid : ValidName name) :
    (Path.join base name).rdropWhile (· == '/') = Path.join base name := by
  obtain ⟨pre, split, -⟩ := join_eq_append name normal
  have ends : (Path.join base name).getLast? = name.getLast? := by
    rw [split, ← List.singleton_append, ← List.append_assoc,
      List.getLast?_append_of_ne_nil _ valid.1]
  rw [List.rdropWhile_eq_self_iff]
  intro nonempty isSlash
  have inName : (Path.join base name).getLast nonempty ∈ name :=
    List.mem_of_getLast? (ends ▸ List.getLast?_eq_some_getLast nonempty)
  rw [beq_iff_eq] at isSlash
  exact valid.2 (isSlash ▸ inName)

theorem join_ne_root {base name : List Char} (normal : Normal base) (valid : ValidName name) :
    Path.join base name ≠ ['/'] := by
  obtain ⟨pre, split, -⟩ := join_eq_append name normal
  rw [split]
  intro isRoot
  have := congrArg List.length isRoot
  simp only [List.length_append, List.length_cons, List.length_nil] at this
  have := List.length_pos_of_ne_nil valid.1
  omega

theorem parent_join {base name : List Char} (normal : Normal base) (valid : ValidName name) :
    parent (Path.join base name) = some base := by
  obtain ⟨pre, split, shape⟩ := join_eq_append name normal
  unfold parent
  rw [if_neg (join_ne_root normal valid)]
  dsimp only
  rw [rdropWhile_join normal valid, split, Text.rfind_append_cons valid.2]
  dsimp only
  rcases shape with ⟨rfl, rfl⟩ | ⟨rfl, nonempty⟩
  · rfl
  · rw [if_neg (fun zero => nonempty (List.length_eq_zero_iff.mp zero)), List.take_left' rfl]

theorem filename_join {base name : List Char} (normal : Normal base) (valid : ValidName name) :
    filename (Path.join base name) = some name := by
  obtain ⟨pre, split, -⟩ := join_eq_append name normal
  unfold filename
  rw [if_neg (join_ne_root normal valid)]
  dsimp only
  rw [rdropWhile_join normal valid, split, Text.rfind_append_cons valid.2]
  dsimp only
  rw [← List.singleton_append, ← List.append_assoc, List.drop_left' (by simp)]

theorem length_lt_join {base name : List Char} (normal : Normal base) (valid : ValidName name) :
    base.length < (Path.join base name).length := by
  obtain ⟨pre, split, shape⟩ := join_eq_append name normal
  rw [split, List.length_append, List.length_cons]
  have := List.length_pos_of_ne_nil valid.1
  rcases shape with ⟨rfl, rfl⟩ | ⟨rfl, -⟩
  · simp only [List.length_nil, List.length_singleton]
    omega
  · omega

theorem Normal.eq_join {path : List Char} (normal : Normal path) (notRoot : path ≠ ['/']) :
    ∃ base name, Normal base ∧ ValidName name ∧ parent path = some base ∧
      filename path = some name ∧ path = Path.join base name := by
  rcases normal.cases with root | ⟨base, name, baseNormal, valid, rfl⟩
  · exact absurd root notRoot
  · exact ⟨base, name, baseNormal, valid, parent_join baseNormal valid,
      filename_join baseNormal valid, rfl⟩

theorem Normal.eq_join_of {path base name : List Char} (normal : Normal path) (notRoot : path ≠ ['/'])
    (parentIs : parent path = some base) (filenameIs : filename path = some name) :
    path = Path.join base name := by
  obtain ⟨base', name', -, -, parentIs', filenameIs', joined⟩ := normal.eq_join notRoot
  rw [parentIs, Option.some.injEq] at parentIs'
  rw [filenameIs, Option.some.injEq] at filenameIs'
  rw [joined, parentIs', filenameIs']

theorem join_right_injective {base name other : List Char} (same : join base name = join base other) :
    name = other := by
  unfold join at same
  split_ifs at same
  · exact List.append_cancel_left same
  · exact (List.cons.inj (List.append_cancel_left same)).2

theorem normal_of_normalize {path normal : List Char} (normalized : normalize path = .ok normal) :
    Normal normal := by
  unfold normalize at normalized
  split_ifs at normalized with relative
  dsimp only at normalized
  -- The loop keeps only pieces of the split that are nonempty, and none holds a `/`.
  have pieces : ∀ piece ∈ (path.splitOn '/').filter (fun component => !component.isEmpty),
      ValidName piece := by
    intro piece member
    obtain ⟨inSplit, nonempty⟩ := List.mem_filter.mp member
    exact ⟨by simpa using nonempty, Text.not_mem_of_mem_splitOn inSplit⟩
  have loop : ∀ (input : List (List Char)) (components : List (List Char)),
      (∀ piece ∈ input, ValidName piece) → (∀ component ∈ components, ValidName component) →
      ∀ component ∈ input.foldl (fun components component =>
          if component = ['.'] then components
          else if component = ['.', '.'] then components.dropLast
          else components ++ [component]) components, ValidName component := by
    intro input
    induction input with
    | nil => exact fun components _ valid => valid
    | cons piece input ih =>
        intro components inputValid valid
        refine ih _ (fun other member => inputValid other (List.mem_cons_of_mem _ member)) ?_
        dsimp only
        split_ifs
        · exact valid
        · exact fun component member => valid component ((List.dropLast_sublist _).subset member)
        · intro component member
          rcases List.mem_append.mp member with old | new
          · exact valid component old
          · rw [List.mem_singleton.mp new]
            exact inputValid piece List.mem_cons_self
  have valid := loop _ [] pieces nofun
  split_ifs at normalized with empty
  · cases normalized
    exact ⟨[], nofun, rfl⟩
  · cases normalized
    exact ⟨_, valid, rfl⟩

example : normalize "/foo/./bar/../baz/".toList = .ok "/foo/baz".toList := by decide

/-! ### The canonical form -/

/-- The pieces `path.split('/')` gives that `normalize` reads: the nonempty ones. -/
def pathComponents (path : List Char) : List (List Char) :=
  (path.splitOn '/').filter fun component => !component.isEmpty

/-- One component on the stack of directories entered: `.` stays, `..` pops, never
above the root, and a name pushes. -/
def stepComponent (stack : List (List Char)) (component : List Char) : List (List Char) :=
  if component = ['.'] then stack
  else if component = ['.', '.'] then stack.tail
  else component :: stack

/-- The components of the directory a path names, in order. -/
def resolveComponents (components : List (List Char)) : List (List Char) :=
  (components.foldl stepComponent []).reverse

/-- A component of a canonical path. -/
def Clean (component : List Char) : Prop :=
  ValidName component ∧ component ≠ ['.'] ∧ component ≠ ['.', '.']

/-- `PathResolver`, with its current directory. -/
structure PathResolver where
  cwd : List Char

def PathResolver.resolve (resolver : PathResolver) (path : List Char) :
    Except String (List Char) :=
  if path.isEmpty then .error "Empty path"
  else
    let absolutePath :=
      if path.head? = some '/' then path
      else if resolver.cwd.getLast? = some '/' then resolver.cwd ++ path
      else resolver.cwd ++ '/' :: path
    normalize absolutePath

theorem foldl_normalize_eq (components : List (List Char)) :
    ∀ stack : List (List Char), components.foldl (fun components component =>
        if component = ['.'] then components
        else if component = ['.', '.'] then components.dropLast
        else components ++ [component]) stack =
      (components.foldl stepComponent stack.reverse).reverse := by
  induction components with
  | nil => exact fun stack => (List.reverse_reverse stack).symm
  | cons component rest ih =>
      intro stack
      rw [List.foldl_cons, List.foldl_cons, ih]
      congr 2
      unfold stepComponent
      split_ifs
      · rfl
      · rw [List.tail_reverse]
      · rw [List.reverse_append, List.reverse_singleton, List.singleton_append]

theorem normalize_eq {path : List Char} (absolute : path.head? = some '/') :
    normalize path = .ok (ofComponents (resolveComponents (pathComponents path))) := by
  unfold normalize
  rw [if_neg (not_not.mpr absolute)]
  dsimp only
  rw [foldl_normalize_eq, List.reverse_nil]
  split_ifs with empty
  · have none : resolveComponents (pathComponents path) = [] := List.isEmpty_iff.mp empty
    rw [none]
    rfl
  · rfl

theorem validName_of_mem_pathComponents {path component : List Char}
    (member : component ∈ pathComponents path) : ValidName component := by
  obtain ⟨inSplit, nonempty⟩ := List.mem_filter.mp member
  exact ⟨by simpa using nonempty, Text.not_mem_of_mem_splitOn inSplit⟩

theorem clean_resolveComponents {components : List (List Char)}
    (valid : ∀ component ∈ components, ValidName component) :
    ∀ component ∈ resolveComponents components, Clean component := by
  -- Every stack the loop reaches holds clean components only.
  have loop : ∀ (input stack : List (List Char)), (∀ component ∈ input, ValidName component) →
      (∀ component ∈ stack, Clean component) →
      ∀ component ∈ input.foldl stepComponent stack, Clean component := by
    intro input
    induction input with
    | nil => exact fun stack _ clean => clean
    | cons piece rest ih =>
        intro stack inputValid clean
        refine ih _ (fun other member => inputValid other (List.mem_cons_of_mem _ member)) ?_
        unfold stepComponent
        split_ifs with isDot isDotDot
        · exact clean
        · exact fun component member => clean component (List.mem_of_mem_tail member)
        · intro component member
          rcases List.mem_cons.mp member with rfl | old
          · exact ⟨inputValid _ List.mem_cons_self, isDot, isDotDot⟩
          · exact clean component old
  intro component member
  exact loop components [] valid nofun component (List.mem_reverse.mp member)

theorem resolveComponents_of_clean {components : List (List Char)}
    (clean : ∀ component ∈ components, Clean component) :
    resolveComponents components = components := by
  have loop : ∀ (input stack : List (List Char)), (∀ component ∈ input, Clean component) →
      input.foldl stepComponent stack = input.reverse ++ stack := by
    intro input
    induction input with
    | nil => exact fun stack _ => rfl
    | cons piece rest ih =>
        intro stack inputClean
        obtain ⟨-, notDot, notDotDot⟩ := inputClean piece List.mem_cons_self
        rw [List.foldl_cons, ih _ (fun other member => inputClean other (List.mem_cons_of_mem _ member)),
          stepComponent, if_neg notDot, if_neg notDotDot, List.reverse_cons, List.append_assoc,
          List.singleton_append]
  rw [resolveComponents, loop components [] clean, List.append_nil, List.reverse_reverse]

theorem pathComponents_ofComponents {components : List (List Char)}
    (valid : ∀ component ∈ components, ValidName component) :
    pathComponents (ofComponents components) = components := by
  unfold pathComponents ofComponents
  rw [List.splitOn_cons_eq_if_modifyHead, if_pos (beq_self_eq_true _), List.filter_cons_of_neg
    (by simp)]
  by_cases empty : components = []
  · subst empty
    rfl
  · rw [List.splitOn_intercalate '/' (fun component member => (valid component member).2) empty,
      List.filter_eq_self]
    intro component member
    simpa using (valid component member).1

theorem normalize_ofComponents {components : List (List Char)}
    (clean : ∀ component ∈ components, Clean component) :
    normalize (ofComponents components) = .ok (ofComponents components) := by
  rw [normalize_eq rfl, pathComponents_ofComponents (fun component member => (clean component member).1),
    resolveComponents_of_clean clean]

theorem PathResolver.resolve_relative (resolver : PathResolver) {path : List Char}
    (nonempty : path ≠ []) (relative : path.head? ≠ some '/') :
    resolver.resolve path = normalize (join resolver.cwd path) := by
  unfold PathResolver.resolve join
  rw [if_neg (by simpa using nonempty)]
  dsimp only
  rw [if_neg relative]

/-- `normalize` sends every absolute path to the canonical path of the
components it names read left to right; that path is its own normal form and,
other than the root, the `join` of its `parent` and `filename`; and `resolve`
of a relative path is the normal form of its `join` to the current
directory. -/
theorem normalize_canonical :
    (∀ path : List Char, path.head? = some '/' →
      ∃ components, normalize path = .ok (ofComponents components) ∧
        components = resolveComponents (pathComponents path) ∧
        (∀ component ∈ components, Clean component) ∧
        normalize (ofComponents components) = .ok (ofComponents components) ∧
        (components ≠ [] → (ofComponents components).getLast? ≠ some '/' ∧
          ∃ base name, parent (ofComponents components) = some base ∧
            filename (ofComponents components) = some name ∧
            join base name = ofComponents components)) ∧
    ∀ cwd relative : List Char, Normal cwd → relative ≠ [] → relative.head? ≠ some '/' →
      (PathResolver.mk cwd).resolve relative = normalize (join cwd relative) := by
  refine ⟨fun path absolute => ?_, fun cwd relative _ nonempty notAbsolute =>
    PathResolver.resolve_relative ⟨cwd⟩ nonempty notAbsolute⟩
  have validComponents : ∀ component ∈ pathComponents path, ValidName component :=
    fun _ member => validName_of_mem_pathComponents member
  have clean := clean_resolveComponents validComponents
  have valid : ∀ component ∈ resolveComponents (pathComponents path), ValidName component :=
    fun component member => (clean component member).1
  refine ⟨_, normalize_eq absolute, rfl, clean, normalize_ofComponents clean, fun nonempty => ?_⟩
  have noSlash := getLast?_ofComponents valid nonempty
  have notRoot : ofComponents (resolveComponents (pathComponents path)) ≠ ['/'] :=
    fun root => noSlash (by rw [root]; rfl)
  obtain ⟨base, name, -, -, parentIs, filenameIs, joined⟩ := Normal.eq_join ⟨_, valid, rfl⟩ notRoot
  exact ⟨noSlash, base, name, parentIs, filenameIs, joined.symm⟩

end FangaOS.Path

import Mathlib.Data.List.Induction
import Phrasebook.Project.Path

/-!
# Proofs/Project/Path — names behind paths

    pieces "a/b"  = ["a", "b"]          join "a/b"  "x"  ──▸  ["a", "b", "x"]
    pieces "a/b/" = ["a", "b", ""]      join "a/b/" "x"  ──▸  ["a", "b", "x"]

Slashes cut a path into pieces, and joining a name to a path adds it as the last piece; an empty
last piece gives way to it.  A path that is made of names alone (`ofNames`) can be climbed: the path
above it is that of the names but the last one (`parent?_ofNames_concat`).  A path that goes along
names from another one has its components and then the names (`components_below`).
-/

namespace Phrasebook.Path

variable {path name : String} {names : List String}

/-- Whether a text can be the name of a file or a folder. -/
def IsName (name : String) : Prop := name ≠ "" ∧ name ≠ "." ∧ name ≠ ".." ∧ '/' ∉ name.toList

instance : Decidable (IsName name) := inferInstanceAs (Decidable (_ ∧ _))

/-! ## Pieces -/

theorem splitChars_ne_nil (chars : List Char) : splitChars chars ≠ [] := by
  cases chars with
  | nil => simp [splitChars]
  | cons c chars =>
    rw [splitChars]
    split
    · simp
    · split <;> simp

theorem splitChars_append_slash (before after : List Char) :
    splitChars (before ++ '/' :: after) = splitChars before ++ splitChars after := by
  induction before with
  | nil =>
    obtain ⟨piece, pieces, h⟩ := List.exists_cons_of_ne_nil (splitChars_ne_nil after)
    simp [splitChars, h]
  | cons c before ih =>
    obtain ⟨piece, pieces, h⟩ := List.exists_cons_of_ne_nil (splitChars_ne_nil before)
    rw [List.cons_append, splitChars, ih, splitChars, h]
    by_cases hc : c = '/' <;> simp [hc]

theorem splitChars_of_not_mem {chars : List Char} (h : '/' ∉ chars) :
    splitChars chars = [chars] := by
  induction chars with
  | nil => rfl
  | cons c chars ih =>
    rw [List.mem_cons, not_or] at h
    rw [splitChars, ih h.2]
    simp [Ne.symm h.1]

theorem pieces_ne_nil (path : String) : pieces path ≠ [] := by
  simpa [pieces] using splitChars_ne_nil path.toList

theorem pieces_append_slash (before after : String) :
    pieces (before ++ "/" ++ after) = pieces before ++ pieces after := by
  simp [pieces, splitChars_append_slash]

theorem IsName.pieces (h : IsName name) : pieces name = [name] := by
  rw [Path.pieces, splitChars_of_not_mem h.2.2.2]
  simp

theorem IsName.isAbsolute (h : IsName name) : isAbsolute name = false := by
  cases hn : name.toList with
  | nil => simp [Path.isAbsolute, hn]
  | cons c chars =>
    have hc : c ≠ '/' := fun he => h.2.2.2 (by simp [hn, he])
    simp [Path.isAbsolute, hn, hc]

/-! ## Joining -/

theorem join_empty (h : IsName name) : join "" name = name := by simp [join, h.isAbsolute]

/-- A path that ends in a slash has an empty last piece. -/
theorem exists_eq_append_slash (h : path.toList.getLast? = some '/') :
    ∃ front, path = front ++ "/" := by
  obtain ⟨front, hfront⟩ := List.getLast?_eq_some_iff.1 h
  exact ⟨String.ofList front, String.toList_inj.1 (by simp [hfront])⟩

/-- **A joined name is the last piece**, in the place of an empty one. -/
theorem pieces_join (hp : path ≠ "") (h : IsName name) :
    pieces (join path name) = pieces path ++ [name]
      ∨ ∃ front, pieces path = front ++ [""] ∧ pieces (join path name) = front ++ [name] := by
  by_cases hl : path.toList.getLast? = some '/'
  · obtain ⟨front, rfl⟩ := exists_eq_append_slash hl
    refine .inr ⟨pieces front, ?_, ?_⟩
    · simpa [pieces, splitChars] using pieces_append_slash front ""
    · rw [join, if_neg (by simp [h.isAbsolute]), if_pos (.inr hl), pieces_append_slash, h.pieces]
  · refine .inl ?_
    rw [join, if_neg (by simp [h.isAbsolute]), if_neg (not_or.2 ⟨hp, hl⟩), pieces_append_slash,
      h.pieces]

theorem toList_join (path : String) (h : IsName name) :
    ∃ rest, rest ≠ [] ∧ (join path name).toList = path.toList ++ rest := by
  have hne : name.toList ≠ [] := fun he => h.1 (String.toList_inj.1 he)
  rw [join, if_neg (by simp [h.isAbsolute])]
  split
  · exact ⟨name.toList, hne, String.toList_append⟩
  · exact ⟨'/' :: name.toList, by simp, by simp⟩

theorem join_ne_empty (h : IsName name) : join path name ≠ "" := by
  obtain ⟨rest, hrest, hlist⟩ := toList_join path h
  intro he
  rw [he] at hlist
  exact hrest (List.append_eq_nil_iff.1 hlist.symm).2

theorem isAbsolute_join (hp : path ≠ "") (h : IsName name) :
    isAbsolute (join path name) = isAbsolute path := by
  obtain ⟨rest, -, hlist⟩ := toList_join path h
  have hne : path.toList ≠ [] := fun he => hp (String.toList_inj.1 he)
  obtain ⟨c, chars, hpath⟩ := List.exists_cons_of_ne_nil hne
  rw [isAbsolute, isAbsolute, hlist, hpath]
  rfl

/-! ## Components -/

theorem IsName.ofPiece (h : IsName name) : ofPiece name = some (.name name) := by
  rw [Path.ofPiece, if_neg (not_or.2 ⟨h.1, h.2.1⟩), if_neg h.2.2.1]

theorem splitChars_eq_singleton_nil {chars : List Char} (h : splitChars chars = [[]]) :
    chars = [] := by
  cases chars with
  | nil => rfl
  | cons c chars =>
    obtain ⟨piece, pieces, hpieces⟩ := List.exists_cons_of_ne_nil (splitChars_ne_nil chars)
    rw [splitChars, hpieces] at h
    by_cases hc : c = '/' <;> simp [hc] at h

theorem eq_empty_of_pieces (h : pieces path = [""]) : path = "" := by
  obtain ⟨piece, hpiece, he⟩ := List.map_eq_singleton_iff.1 h
  have hnil : piece = [] := by simpa using congrArg String.toList he
  exact String.toList_inj.1 (splitChars_eq_singleton_nil (hnil ▸ hpiece))

/-- **A joined name is the last component.** -/
theorem components_join (hp : path ≠ "") (h : IsName name) :
    components (join path name) = components path ++ [.name name] := by
  rcases pieces_join hp h with hpieces | ⟨front, hpath, hpieces⟩
  · obtain ⟨first, rest, hfirst⟩ := List.exists_cons_of_ne_nil (pieces_ne_nil path)
    rw [components, components, hpieces, hfirst, isAbsolute_join hp h]
    simp [h.ofPiece]
  · cases front with
    | nil => exact absurd (eq_empty_of_pieces hpath) hp
    | cons first rest =>
      have hempty : ofPiece "" = none := rfl
      rw [components, components, hpieces, hpath, isAbsolute_join hp h]
      simp [h.ofPiece, hempty]

/-! ## Paths of names

A search climbs from the path of a folder by leaving out the last name; these are the paths on its
way. -/

/-- The path that goes along these names. -/
def ofNames (names : List String) : String := String.intercalate "/" names

theorem forall_isName_concat :
    (∀ other ∈ names ++ [name], IsName other) ↔ (∀ other ∈ names, IsName other) ∧ IsName name := by
  rw [List.forall_mem_append, List.forall_mem_singleton]

@[simp] theorem ofNames_nil : ofNames [] = "" := rfl

@[simp] theorem ofNames_singleton : ofNames [name] = name := String.intercalate_singleton

theorem ofNames_concat (hne : names ≠ []) :
    ofNames (names ++ [name]) = ofNames names ++ "/" ++ name := by
  rw [ofNames, String.intercalate_append_of_ne_nil hne (List.cons_ne_nil _ _),
    String.intercalate_singleton, ofNames]

/-- **The pieces of a path of names are the names.** -/
theorem pieces_ofNames (hne : names ≠ []) (hnames : ∀ name ∈ names, IsName name) :
    pieces (ofNames names) = names := by
  induction names using List.reverseRecOn with
  | nil => exact absurd rfl hne
  | append_singleton names name ih =>
    obtain ⟨hrest, hname⟩ := forall_isName_concat.1 hnames
    rcases eq_or_ne names [] with rfl | hne'
    · rw [List.nil_append, ofNames_singleton, hname.pieces]
    · rw [ofNames_concat hne', pieces_append_slash, hname.pieces, ih hne' hrest]

theorem trimEnd_cons (hname : IsName name) : trimEnd (name :: names) = name :: names := by
  cases names with
  | nil => rfl
  | cons next rest => rw [trimEnd, if_neg (not_or.2 ⟨hname.1, hname.2.1⟩)]; simp

/-- **Climbing from a path of names leaves out the last one.** -/
theorem parent?_ofNames_concat (hnames : ∀ other ∈ names, IsName other) (hname : IsName name) :
    parent? (ofNames (names ++ [name])) = some (ofNames names) := by
  rw [parent?, pieces_ofNames (by simp) (forall_isName_concat.2 ⟨hnames, hname⟩),
    List.reverse_append, List.reverse_singleton, List.singleton_append, trimEnd_cons hname]
  cases hrev : names.reverse with
  | nil =>
    rw [List.reverse_eq_nil_iff.1 hrev]
    simp [hname.1]
  | cons last before =>
    have hlast : IsName last := hnames last (List.mem_reverse.1 (hrev ▸ List.mem_cons_self))
    have hback : (last :: before).reverse = names := by rw [← hrev, List.reverse_reverse]
    dsimp only
    rw [trimEnd_cons hlast, hback]
    split
    · exact absurd rfl (hnames "" (by simp_all)).1
    · rfl

/-- A path of names ends in its last name. -/
theorem exists_toList_ofNames_concat (names : List String) (name : String) :
    ∃ front, (ofNames (names ++ [name])).toList = front ++ name.toList := by
  rcases eq_or_ne names [] with rfl | hne
  · exact ⟨[], by simp⟩
  · exact ⟨(ofNames names ++ "/").toList, by rw [ofNames_concat hne, String.toList_append]⟩

theorem IsName.getLast?_ne (h : IsName name) (front : List Char) :
    front ++ name.toList ≠ [] ∧ (front ++ name.toList).getLast? ≠ some '/' := by
  have hne : name.toList ≠ [] := fun he => h.1 (String.toList_inj.1 he)
  refine ⟨fun he => hne (List.append_eq_nil_iff.1 he).2, fun hlast => h.2.2.2 ?_⟩
  rw [List.getLast?_append, List.getLast?_eq_some_getLast hne, Option.some_or,
    Option.some.injEq] at hlast
  exact hlast ▸ List.getLast_mem hne

/-- **Joining a name to a path of names adds it.** -/
theorem join_ofNames (hnames : ∀ other ∈ names, IsName other) (hname : IsName name) :
    join (ofNames names) name = ofNames (names ++ [name]) := by
  rcases List.eq_nil_or_concat names with rfl | ⟨before, last, rfl⟩
  · rw [ofNames_nil, join_empty hname, List.nil_append, ofNames_singleton]
  · rw [List.concat_eq_append] at hnames ⊢
    obtain ⟨front, hfront⟩ := exists_toList_ofNames_concat before last
    obtain ⟨hne, hslash⟩ := (forall_isName_concat.1 hnames).2.getLast?_ne front
    rw [join, if_neg (by simp [hname.isAbsolute]), if_neg,
      ofNames_concat (show before ++ [last] ≠ [] by simp)]
    rintro (he | hlast)
    · exact hne (by rw [← hfront, he, String.toList_empty])
    · exact hslash (by rw [← hfront, hlast])

theorem isAbsolute_ofNames (hnames : ∀ name ∈ names, IsName name) :
    isAbsolute (ofNames names) = false := by
  induction names using List.reverseRecOn with
  | nil => rfl
  | append_singleton names name ih =>
    obtain ⟨hrest, hname⟩ := forall_isName_concat.1 hnames
    rw [← join_ofNames hrest hname]
    by_cases he : ofNames names = ""
    · rw [he, join_empty hname, hname.isAbsolute]
    · rw [isAbsolute_join he hname, ih hrest]

theorem length_le_length_ofNames (hnames : ∀ name ∈ names, IsName name) :
    names.length ≤ (ofNames names).length := by
  induction names using List.reverseRecOn with
  | nil => exact Nat.zero_le _
  | append_singleton names name ih =>
    obtain ⟨hrest, hname⟩ := forall_isName_concat.1 hnames
    have hlen : 1 ≤ name.length :=
      Nat.pos_of_ne_zero fun he => hname.1 (String.length_eq_zero_iff.1 he)
    have hshort := ih hrest
    rcases eq_or_ne names [] with rfl | hne
    · simpa using hlen
    · rw [ofNames_concat hne, String.length_append, String.length_append, List.length_append]
      simp only [List.length_singleton]
      omega

/-! ## Paths below another one -/

/-- The path that goes along these names from another path. -/
def below (base : String) (names : List String) : String := names.foldl join base

@[simp] theorem below_nil {base : String} : below base [] = base := rfl

@[simp] theorem below_cons {base : String} :
    below base (name :: names) = below (join base name) names := rfl

@[simp] theorem below_concat {base : String} :
    below base (names ++ [name]) = join (below base names) name := by
  rw [below, List.foldl_append, List.foldl_cons, List.foldl_nil, below]

theorem below_ne_empty {base : String} (hbase : base ≠ "") (hnames : ∀ name ∈ names, IsName name) :
    below base names ≠ "" := by
  rcases List.eq_nil_or_concat names with rfl | ⟨before, last, rfl⟩
  · exact hbase
  · rw [List.concat_eq_append] at hnames ⊢
    rw [below_concat]
    exact join_ne_empty (forall_isName_concat.1 hnames).2

/-- **The components of a path below another one** are those of that one and the names. -/
theorem components_below {base : String} (hbase : base ≠ "")
    (hnames : ∀ name ∈ names, IsName name) :
    components (below base names) = components base ++ names.map .name := by
  induction names using List.reverseRecOn with
  | nil => simp
  | append_singleton names name ih =>
    obtain ⟨hrest, hname⟩ := forall_isName_concat.1 hnames
    rw [below_concat, components_join (below_ne_empty hbase hrest) hname, ih hrest]
    simp

/-- Paths below another one lead along different names. -/
theorem eq_of_components_below {base : String} {more : List String} (hbase : base ≠ "")
    (hnames : ∀ name ∈ names, IsName name) (hmore : ∀ name ∈ more, IsName name)
    (h : components (below base names) = components (below base more)) : names = more := by
  rw [components_below hbase hnames, components_below hbase hmore, List.append_cancel_left_eq] at h
  exact (List.map_inj_right fun a b => Component.name.inj).1 h

end Phrasebook.Path

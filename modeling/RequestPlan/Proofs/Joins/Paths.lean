import RequestPlan.Joins
import RequestPlan.Proofs.Text

/-!
# Dotted paths

* `dotted`: names with a dot between each two; `PlainNames`: names that can be read back from it.
* `Headed`: names that a walk along their path tells apart, of which only the first may not be empty.
* `dotted_inj`: different names have different paths.
* `pathStart_dotted`: **a walk that counts bytes stands behind whole names**: the start of a path
  that `segmentEnd` measures is the path of the names so far.
-/

namespace RequestPlan

/-- Names with a dot between each two. -/
def dotted (names : List String) : String := Text.joinWith (String.singleton '.') names

/-- Names that are not empty and have no dot. -/
def PlainNames (names : List String) : Prop := ∀ name ∈ names, name ≠ "" ∧ '.' ∉ name.toList

/-- Names without dots, the first of which is there and not empty. -/
def Headed (names : List String) : Prop :=
  names ≠ [] ∧ names.head? ≠ some "" ∧ ∀ name ∈ names, '.' ∉ name.toList

/-- A path none of whose segments is empty. -/
def Dotted (path : String) : Prop := ∀ segment ∈ Text.splitOn '.' path, segment ≠ ""

instance (path : String) : Decidable (Dotted path) :=
  inferInstanceAs (Decidable (∀ segment ∈ Text.splitOn '.' path, segment ≠ ""))

variable {names before rest : List String} {name path : String}

/-! ## Names and paths -/

theorem Dotted.plainNames (h : Dotted path) : PlainNames (Text.splitOn '.' path) :=
  fun segment hsegment => ⟨h segment hsegment, Text.not_mem_of_mem_splitOn hsegment⟩

theorem dotted_splitOn (path : String) : dotted (Text.splitOn '.' path) = path :=
  Text.joinWith_splitOn '.' path

theorem splitOn_dotted (hne : names ≠ []) (h : PlainNames names) :
    Text.splitOn '.' (dotted names) = names :=
  Text.splitOn_joinWith hne fun name hname => (h name hname).2

/-- Names are read back from their path. -/
theorem dotted_inj {names' : List String} (hne : names ≠ []) (hne' : names' ≠ [])
    (h : PlainNames names) (h' : PlainNames names') (heq : dotted names = dotted names') :
    names = names' := by
  have hsplit := congrArg (Text.splitOn '.') heq
  rwa [splitOn_dotted hne h, splitOn_dotted hne' h'] at hsplit

theorem PlainNames.of_initial (h : PlainNames rest) (hinitial : names <+: rest) :
    PlainNames names :=
  fun name hname => h name (hinitial.subset hname)

theorem PlainNames.head?_ne (h : PlainNames names) : names.head? ≠ some "" :=
  fun hhead => (h "" (List.mem_of_mem_head? hhead)).1 rfl

theorem PlainNames.headed (h : PlainNames names) (hne : names ≠ []) : Headed names :=
  ⟨hne, h.head?_ne, fun name hname => (h name hname).2⟩

theorem Headed.splitOn_dotted (h : Headed names) : Text.splitOn '.' (dotted names) = names :=
  Text.splitOn_joinWith h.1 h.2.2

theorem Headed.dotted_inj {names' : List String} (h : Headed names) (h' : Headed names')
    (heq : dotted names = dotted names') : names = names' := by
  rw [← h.splitOn_dotted, heq, h'.splitOn_dotted]

/-- Names are still headed when some at the end are taken away. -/
theorem Headed.of_append (h : Headed (names ++ rest)) (hne : names ≠ []) : Headed names := by
  refine ⟨hne, ?_, fun name hname => h.2.2 name (List.mem_append_left _ hname)⟩
  obtain ⟨name, names, rfl⟩ := List.exists_cons_of_ne_nil hne
  exact h.2.1

theorem Headed.head?_before (h : Headed (names ++ [name])) : names.head? ≠ some "" := by
  cases names with
  | nil => simp
  | cons n ns => exact h.2.1

theorem Headed.concat (h : Headed names) (hdot : '.' ∉ name.toList) : Headed (names ++ [name]) := by
  refine ⟨by simp, ?_, fun n hn => ?_⟩
  · obtain ⟨n, ns, rfl⟩ := List.exists_cons_of_ne_nil h.1
    exact h.2.1
  · rcases List.mem_append.1 hn with hn | hn
    · exact h.2.2 n hn
    · exact List.mem_singleton.1 hn ▸ hdot

/-- The segments of a path are headed unless it is empty or starts with a dot. -/
theorem headed_splitOn_iff : Headed (Text.splitOn '.' path) ↔
    ∃ c, path.toList.head? = some c ∧ c ≠ '.' := by
  have hdots : ∀ name ∈ Text.splitOn '.' path, '.' ∉ name.toList :=
    fun name hname => Text.not_mem_of_mem_splitOn hname
  rw [Headed, and_iff_right (Text.splitOn_ne_nil '.' path), and_iff_left hdots, Text.splitOn,
    List.head?_map]
  cases path.toList with
  | nil => simp [Text.splitChars]
  | cons c cs =>
    by_cases hc : c = '.'
    · simp [Text.splitChars, hc]
    · rw [Text.splitChars, if_neg hc]
      cases Text.splitChars '.' cs <;> simp [hc]

@[simp] theorem dotted_singleton (name : String) : dotted [name] = name := rfl

theorem dotted_append (hne : names ≠ []) (hrest : rest ≠ []) :
    dotted (names ++ rest) = dotted names ++ "." ++ dotted rest := by
  induction names with
  | nil => exact absurd rfl hne
  | cons a names ih =>
    cases names with
    | nil =>
      cases rest with
      | nil => exact absurd rfl hrest
      | cons b rest => exact Text.joinWith_cons_cons _ a b rest
    | cons b names =>
      have htail : dotted (b :: names ++ rest) = dotted (b :: names) ++ "." ++ dotted rest :=
        ih (List.cons_ne_nil b names)
      have hcons : dotted (a :: b :: names) = a ++ "." ++ dotted (b :: names) :=
        Text.joinWith_cons_cons _ a b names
      have hwhole : dotted (a :: (b :: names ++ rest)) = a ++ "." ++ dotted (b :: names ++ rest) :=
        Text.joinWith_cons_cons _ a b (names ++ rest)
      rw [List.cons_append, hwhole, htail, hcons]
      simp only [String.append_assoc]

/-! ## Walking by bytes -/

theorem utf8ByteSize_ofList_cons (c : Char) (cs : List Char) :
    (String.ofList (c :: cs)).utf8ByteSize = c.utf8Size + (String.ofList cs).utf8ByteSize := by
  have hcons : String.ofList (c :: cs) = String.singleton c ++ String.ofList cs := by
    apply String.toList_inj.1
    simp
  rw [hcons, String.utf8ByteSize_append, String.utf8ByteSize_singleton]

theorem takeBytes_append (cs ds : List Char) :
    takeBytes (String.ofList cs).utf8ByteSize (cs ++ ds) = cs := by
  induction cs with
  | nil =>
    cases ds with
    | nil => rfl
    | cons d ds =>
      have hpos : 0 < d.utf8Size := Char.utf8Size_pos d
      show (if d.utf8Size ≤ 0 then _ else []) = []
      rw [if_neg (by omega)]
  | cons c cs ih =>
    rw [List.cons_append, takeBytes, utf8ByteSize_ofList_cons, if_pos (Nat.le_add_right _ _),
      Nat.add_sub_cancel_left, ih]

theorem pathStart_append (start rest : String) :
    pathStart (start ++ rest) start.utf8ByteSize = start := by
  have htake := takeBytes_append start.toList rest.toList
  rw [String.ofList_toList] at htake
  rw [pathStart, String.toList_append, htake, String.ofList_toList]

/-- Where a segment ends is where the path of the names up to it ends. -/
theorem segmentEnd_dotted (h : before.head? ≠ some "") :
    segmentEnd (dotted before).utf8ByteSize name = (dotted (before ++ [name])).utf8ByteSize := by
  cases before with
  | nil => rfl
  | cons a before =>
    have hne : a :: before ≠ [] := List.cons_ne_nil a before
    have hpos : (dotted (a :: before)).utf8ByteSize ≠ 0 := by
      have ha : a.utf8ByteSize ≠ 0 := by
        rw [Ne, String.utf8ByteSize_eq_zero_iff]
        rintro rfl
        exact h rfl
      cases before with
      | nil => exact ha
      | cons b before =>
        have hcons : dotted (a :: b :: before) = a ++ "." ++ dotted (b :: before) :=
          Text.joinWith_cons_cons _ a b before
        rw [hcons, String.utf8ByteSize_append, String.utf8ByteSize_append]
        omega
    have hdot : (".".utf8ByteSize : Nat) = 1 := by decide
    rw [segmentEnd, if_neg hpos, dotted_append hne (List.cons_ne_nil name []), dotted_singleton,
      String.utf8ByteSize_append, String.utf8ByteSize_append, hdot]
    omega

/-- **The start of a path that a walk has measured is the path of the names so far.** -/
theorem pathStart_dotted (h : before.head? ≠ some "") :
    pathStart (dotted (before ++ name :: rest)) (segmentEnd (dotted before).utf8ByteSize name) =
      dotted (before ++ [name]) := by
  rw [segmentEnd_dotted h]
  cases rest with
  | nil =>
    have hend := pathStart_append (dotted (before ++ [name])) ""
    rwa [String.append_empty] at hend
  | cons b rest =>
    have hsplit : before ++ name :: b :: rest = (before ++ [name]) ++ b :: rest := by simp
    rw [hsplit, dotted_append (by simp) (List.cons_ne_nil b rest), String.append_assoc]
    exact pathStart_append _ _

/-- A path that is empty or starts with a dot has no start that does neither. -/
theorem not_headed_pathStart (h : ¬Headed (Text.splitOn '.' path)) (bytes : Nat) :
    ¬Headed (Text.splitOn '.' (pathStart path bytes)) := by
  rw [headed_splitOn_iff] at h ⊢
  rintro ⟨c, hc, hdot⟩
  rw [pathStart, String.toList_ofList] at hc
  cases hpath : path.toList with
  | nil =>
    rw [hpath] at hc
    cases hc
  | cons d ds =>
    rw [hpath, takeBytes] at hc
    split at hc
    · cases hc
      exact h ⟨c, by rw [hpath]; rfl, hdot⟩
    · cases hc

end RequestPlan

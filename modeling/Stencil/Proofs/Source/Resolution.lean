import Mathlib.Algebra.Group.Nat.Even
import Stencil.Proofs.Source.Directories

/-!
# Lexical resolution

`Path.resolve` follows the steps of an absolute path from the root directory, above which is the root
directory again. `Path.normalize` keeps a step to the parent that is taken there and lets the next such
step take it back, so that it resolves a path if these steps come in pairs: `steps_normalize`. Names
that lead to the same path below a root then have the same key there.
-/

namespace Stencil

namespace Path

/-- One step from the place with these names; the root directory is its own parent. -/
def follow (names : List String) : Step → List String
  | .current => names
  | .parent => names.dropLast
  | .name s => names ++ [s]

/-- The names on the way from the root directory to the place that an absolute path leads to. -/
def resolve (p : Path) : List String := p.steps.foldl follow []

/-- Whether a step leads up from the root directory. -/
def climbs (names : List String) (step : Step) : Nat := if step = .parent ∧ names = [] then 1 else 0

def climbsFrom (names : List String) : List Step → Nat
  | [] => 0
  | step :: rest => climbs names step + climbsFrom (follow names step) rest

/-- How many steps of an absolute path lead up from the root directory. -/
def strays (p : Path) : Nat := climbsFrom [] p.steps

/-- What normalizing makes of steps: behind the steps to a parent that are left over stand the names of
the place. -/
def settled (strays : Nat) (names : List String) : List Step :=
  List.replicate (strays % 2) .parent ++ names.map .name

theorem settled_of_even {n : Nat} (h : Even n) (names : List String) :
    settled n names = names.map .name := by
  rw [settled, Nat.even_iff.1 h]
  rfl

theorem settled_inj {n n' : Nat} {names names' : List String} :
    settled n names = settled n' names' ↔ n % 2 = n' % 2 ∧ names = names' := by
  constructor
  · intro h
    have hcount := congrArg (List.count Step.parent) h
    have hnone (names : List String) : List.count Step.parent (names.map .name) = 0 :=
      List.count_eq_zero.2 (by simp)
    simp only [settled, List.count_append, List.count_replicate_self, hnone, Nat.add_zero] at hcount
    simp only [settled, hcount, List.append_cancel_left_eq] at h
    exact ⟨hcount, List.map_injective_iff.2 (fun _ _ => Step.name.inj) h⟩
  · rintro ⟨hn, rfl⟩
    rw [settled, settled, hn]

/-- One step from a normal form. Only in the root directory does a step to the parent count. -/
theorem enter_settled (n : Nat) (names : List String) (step : Step) :
    enter (settled n names) step = settled (n + climbs names step) (follow names step) := by
  cases step with
  | current => rfl
  | name s => simp [enter, settled, follow, climbs]
  | parent =>
    cases names with
    | nil =>
      rcases Nat.mod_two_eq_zero_or_one n with h | h
      · have h' : (n + 1) % 2 = 1 := by omega
        simp [enter, settled, follow, climbs, h, h']
      · have h' : (n + 1) % 2 = 0 := by omega
        simp [enter, settled, follow, climbs, h, h']
    | cons first others =>
      have hne : (first :: others).map Step.name ≠ [] := by simp
      simp [enter, settled, follow, climbs, List.dropLast_append_of_ne_nil, List.map_dropLast]

theorem foldl_enter_settled (n : Nat) (names : List String) (steps : List Step) :
    steps.foldl enter (settled n names) =
      settled (n + climbsFrom names steps) (steps.foldl follow names) := by
  induction steps generalizing n names with
  | nil => rfl
  | cons step steps ih =>
    rw [List.foldl_cons, enter_settled, ih, climbsFrom, List.foldl_cons, Nat.add_assoc]

/-- The normal form of a path: the place that it leads to, and a step to the parent in front of it if
an odd number of steps leads up from the root directory. -/
theorem steps_normalize (p : Path) : p.normalize.steps = settled p.strays p.resolve := by
  have h := foldl_enter_settled 0 [] p.steps
  rwa [Nat.zero_add] at h

theorem normalize_eq (p : Path) : p.normalize = ⟨p.absolute, settled p.strays p.resolve⟩ :=
  congrArg (Path.mk p.absolute) p.steps_normalize

theorem foldl_enter_names (start : List Step) (names : List String) :
    (names.map Step.name).foldl enter start = start ++ names.map .name := by
  induction names generalizing start with
  | nil => simp
  | cons s names ih => rw [List.map_cons, List.foldl_cons, ih]; simp [enter]

theorem foldl_enter_normalize (p : Path) : p.normalize.steps.foldl enter [] = p.normalize.steps := by
  rw [steps_normalize, settled, List.foldl_append, foldl_enter_names]
  rcases Nat.mod_two_eq_zero_or_one p.strays with h | h <;> simp [h, enter]

theorem normalize_normalize (p : Path) : p.normalize.normalize = p.normalize :=
  congrArg (Path.mk p.absolute) p.foldl_enter_normalize

/-- Paths have one normal form if they lead to the same place and the same is left over. -/
theorem normalize_inj {p q : Path} (ha : p.absolute = q.absolute) :
    p.normalize = q.normalize ↔ p.resolve = q.resolve ∧ p.strays % 2 = q.strays % 2 := by
  rw [normalize_eq, normalize_eq, Path.mk.injEq, settled_inj]
  exact ⟨fun ⟨_, h, hr⟩ => ⟨hr, h⟩, fun ⟨hr, h⟩ => ⟨ha, h, hr⟩⟩

theorem normalize_join_normalize {base p : Path} (h : p.absolute = false) :
    (base.normalize.join p).normalize = (base.join p).normalize := by
  rw [normalize_join h, normalize_join h, normalize_normalize, absolute_normalize]

theorem resolve_join (base p : Path) :
    (base.join p).resolve = p.steps.foldl follow (if p.absolute then [] else base.resolve) := by
  unfold join
  split
  · rfl
  · exact List.foldl_append

/-! ## Names with an extension -/

/-- The steps that stand in a text, the `.` that a relative path may start with aside. -/
def stepsOf (s : List Char) : List Step := (Text.pieces ['/'] s).filterMap Step.ofChars?

theorem foldl_follow_ofChars (names : List String) (s : List Char) :
    (ofChars s).steps.foldl follow names = (stepsOf s).foldl follow names := by
  simp only [ofChars, stepsOf]
  split <;> rfl

/-- Nothing, or a text that ends with a slash. -/
def IsFront (front : List Char) : Prop := front = [] ∨ ∃ dir, front = dir ++ ['/']

theorem stepsOf_append {front : List Char} (h : IsFront front) (s : List Char) :
    stepsOf (front ++ s) = stepsOf front ++ stepsOf s := by
  obtain rfl | ⟨dir, rfl⟩ := h
  · rfl
  · have hempty : stepsOf [] = [] := rfl
    have happend (s : List Char) : stepsOf (dir ++ '/' :: s) = stepsOf dir ++ stepsOf s := by
      rw [stepsOf, Text.pieces_append_cons, List.filterMap_append]
      rfl
    rw [List.append_assoc, List.singleton_append, happend, happend, hempty, List.append_nil]

/-- A name that ends with the name of a file, and not with a slash, `.` or `..`. -/
structure EndsWith (name : String) (front last : List Char) : Prop where
  eq : name.toList = front ++ last
  isFront : IsFront front
  no_slash : '/' ∉ last
  named : Step.ofChars? last = some (.name (String.ofList last))

namespace EndsWith

variable {name : String} {front last : List Char}

theorem stepsOf_last (h : EndsWith name front last) : stepsOf last = [.name (String.ofList last)] := by
  rw [stepsOf, Text.pieces_of_not_mem h.no_slash, List.filterMap_cons, h.named, List.filterMap_nil]

theorem extension? (h : EndsWith name front last) :
    (ofString name).extension? = (nameExtension? last).map String.ofList := by
  have hlast : (ofString name).steps.getLast? = some (.name (String.ofList last)) := by
    have hsteps := stepsOf_append h.isFront last
    rw [h.stepsOf_last] at hsteps
    rw [ofString, h.eq, ofChars]
    dsimp only
    rw [show (Text.pieces ['/'] (front ++ last)).filterMap Step.ofChars? = _ from hsteps,
      ← List.append_assoc]
    exact List.getLast?_concat
  rw [Path.extension?, hlast]
  simp

theorem alone (h : EndsWith name front last) : EndsWith (String.ofList last) [] last :=
  ⟨String.toList_ofList, .inl rfl, h.no_slash, h.named⟩

theorem toList_withExtension (h : EndsWith name front last) (extname : String) :
    (withExtension name extname).toList =
      front ++ (withExtension (String.ofList last) extname).toList := by
  rw [withExtension, withExtension, h.extension?, h.alone.extension?]
  split
  · rw [h.eq, String.toList_ofList]
  · rw [String.toList_append, String.toList_append, h.eq, String.toList_ofList, List.append_assoc]

theorem foldl_follow (h : EndsWith name front last) (names : List String) :
    (ofString name).steps.foldl follow names =
      (stepsOf front).foldl follow names ++ [String.ofList last] := by
  rw [ofString, foldl_follow_ofChars, h.eq, stepsOf_append h.isFront, h.stepsOf_last,
    List.foldl_append]
  rfl

theorem ne_empty (h : EndsWith name front last) : name ≠ "" := by
  rintro rfl
  obtain ⟨-, rfl⟩ := List.append_eq_nil_iff.1 h.eq.symm
  exact absurd h.named (by simp [Step.ofChars?])

end EndsWith

def EndsInName (name : String) : Prop := ∃ front last, EndsWith name front last

/-- The place with the extension that its last name takes. -/
def extended (extname : String) (names : List String) : List String :=
  (stepsOf (withExtension (names.getLast?.getD "") extname).toList).foldl follow names.dropLast

/-- Where a name with its extension leads to hangs on where the name itself leads to. -/
theorem EndsInName.foldl_follow_withExtension {name : String} (h : EndsInName name)
    (extname : String) (names : List String) :
    (ofString (withExtension name extname)).steps.foldl follow names =
      extended extname ((ofString name).steps.foldl follow names) := by
  obtain ⟨front, last, h⟩ := h
  rw [ofString, foldl_follow_ofChars, h.toList_withExtension, stepsOf_append h.isFront,
    List.foldl_append, h.foldl_follow, extended, List.getLast?_concat, List.dropLast_concat]
  rfl

theorem absolute_withExtension {name : String} (h : name ≠ "") (extname : String) :
    (ofString (withExtension name extname)).absolute = (ofString name).absolute := by
  have hne : name.toList ≠ [] := by simpa using h
  unfold withExtension
  split
  · rfl
  · simp only [ofString, ofChars, String.toList_append, List.head?_append_of_ne_nil _ hne]

end Path

namespace Directories

variable {d : Directories} {fs : FileSystem} {root name name' : String}

/-- The path that a text stands for below a root. -/
def below (fs : FileSystem) (root text : String) : Path :=
  (fs.workingDirectory.join (.ofString root)).join (.ofString text)

/-- The path that a name asks for below a root. -/
def request (d : Directories) (fs : FileSystem) (root name : String) : Path :=
  below fs root (Path.withExtension name d.extname)

/-- The names ask for the same place below a root, with nothing left over of the steps up from the
root directory. -/
structure Meet (d : Directories) (fs : FileSystem) (root name name' : String) : Prop where
  resolve : (d.request fs root name).resolve = (d.request fs root name').resolve
  even : Even (d.request fs root name).strays
  even' : Even (d.request fs root name').strays

theorem absolute_request (hfs : fs.workingDirectory.absolute = true) :
    (d.request fs root name).absolute = true := by
  simp [request, below, hfs]

theorem Meet.normalize_eq (hfs : fs.workingDirectory.absolute = true)
    (h : Meet d fs root name name') :
    (d.request fs root name).normalize = (d.request fs root name').normalize := by
  refine (Path.normalize_inj ?_).2 ⟨h.resolve, ?_⟩
  · rw [absolute_request hfs, absolute_request hfs]
  · rw [Nat.even_iff.1 h.even, Nat.even_iff.1 h.even']

/-- The key of a relative name below a root hangs on the normal form of what it asks for there. -/
theorem candidate?_request (h : (Path.ofString (Path.withExtension name d.extname)).absolute = false) :
    candidate? (.ofString (Path.withExtension name d.extname))
        (fs.workingDirectory.join (.ofString root)).normalize =
      let p := (d.request fs root name).normalize
      if p.within (fs.workingDirectory.join (.ofString root)).normalize then some p.text else none := by
  rw [candidate?, Path.normalize_join_normalize h]
  rfl

theorem candidates_of_absolute
    (h : (Path.ofString (Path.withExtension name d.extname)).absolute = true) (root : String) :
    d.candidates fs name = [(d.request fs root name).normalize.text] := by
  simp [candidates, request, below, Path.join, h]

theorem candidates_of_relative
    (h : (Path.ofString (Path.withExtension name d.extname)).absolute = false) :
    d.candidates fs name = d.roots.filterMap fun root =>
      let p := (d.request fs root name).normalize
      if p.within (fs.workingDirectory.join (.ofString root)).normalize then some p.text else none := by
  simp only [candidates, h, absoluteRoots, List.filterMap_map]
  exact List.filterMap_congr fun root _ => candidate?_request h

/-- Below a root that the path of a name stays in, the normal form of the path is a key of the name. -/
theorem text_mem_candidates (hroot : root ∈ d.roots)
    (hin : (d.request fs root name).normalize.within
      (fs.workingDirectory.join (.ofString root)).normalize = true) :
    (d.request fs root name).normalize.text ∈ d.candidates fs name := by
  cases h : (Path.ofString (Path.withExtension name d.extname)).absolute with
  | true => rw [candidates_of_absolute h root]; exact List.mem_singleton_self _
  | false =>
    rw [candidates_of_relative h]
    exact List.mem_filterMap.2 ⟨root, hroot, by simp only [hin, ↓reduceIte]⟩

theorem Meet.candidates_eq (hfs : fs.workingDirectory.absolute = true) (hne : d.roots ≠ [])
    (hkind : (Path.ofString (Path.withExtension name d.extname)).absolute =
      (Path.ofString (Path.withExtension name' d.extname)).absolute)
    (h : ∀ root ∈ d.roots, Meet d fs root name name') :
    d.candidates fs name = d.candidates fs name' := by
  cases ha : (Path.ofString (Path.withExtension name d.extname)).absolute with
  | true =>
    obtain ⟨root, others, hroots⟩ := List.exists_cons_of_ne_nil hne
    rw [candidates_of_absolute ha root, candidates_of_absolute (hkind ▸ ha) root,
      (h root (hroots ▸ List.mem_cons_self)).normalize_eq hfs]
  | false =>
    rw [candidates_of_relative ha, candidates_of_relative (hkind ▸ ha)]
    exact List.filterMap_congr fun root hroot => by rw [(h root hroot).normalize_eq hfs]

/-- A name that ends in the name of a file may be followed without its extension. -/
theorem resolve_request (h : Path.EndsInName name) :
    (d.request fs root name).resolve = Path.extended d.extname (below fs root name).resolve := by
  obtain ⟨front, last, hends⟩ := h
  rw [request, below, below, Path.resolve_join _ (.ofString (Path.withExtension name d.extname)),
    Path.resolve_join _ (.ofString name), Path.absolute_withExtension hends.ne_empty]
  exact Path.EndsInName.foldl_follow_withExtension ⟨front, last, hends⟩ _ _

/-- **Lexical resolution.** The normal form of an absolute path is the place that its steps lead to, if
those that lead up from the root directory come in pairs; else a step to the parent stands in front.
Names that lead to the same path below a root have the same key there, where each asks for the name
with its extension. -/
theorem lexical_resolution {p : Path} (hp : p.absolute = true) (d : Directories) {fs : FileSystem}
    (hfs : fs.workingDirectory.absolute = true) :
    (p.normalize = ⟨true, Path.settled p.strays p.resolve⟩ ∧
      (p.normalize = ⟨true, p.resolve.map .name⟩ ↔ Even p.strays) ∧
      (Even p.strays → .current ∉ p.normalize.steps ∧ .parent ∉ p.normalize.steps) ∧
      p.normalize.normalize = p.normalize ∧
      ∀ text : String, p = .ofString text → Path.ofString p.normalize.text = p.normalize) ∧
    (∀ name name' : String, d.roots ≠ [] →
      (Path.ofString (Path.withExtension name d.extname)).absolute =
        (Path.ofString (Path.withExtension name' d.extname)).absolute →
      (∀ root ∈ d.roots, Meet d fs root name name') →
      d.candidates fs name = d.candidates fs name') ∧
    (∀ root ∈ d.roots, ∀ name name' : String, Meet d fs root name name' →
      (d.request fs root name).normalize.within
        (fs.workingDirectory.join (.ofString root)).normalize = true →
      (d.request fs root name).normalize.text ∈ d.candidates fs name ∧
        (d.request fs root name).normalize.text ∈ d.candidates fs name') ∧
    ∀ root name name' : String, Path.EndsInName name → Path.EndsInName name' →
      (below fs root name).resolve = (below fs root name').resolve →
      (d.request fs root name).resolve = (d.request fs root name').resolve := by
  have hsettled : p.normalize = ⟨true, Path.settled p.strays p.resolve⟩ := hp ▸ p.normalize_eq
  refine ⟨⟨hsettled, ?_, fun heven => ?_, p.normalize_normalize, ?_⟩,
    fun name name' hne hkind h => Meet.candidates_eq hfs hne hkind h,
    fun root hroot name name' h hin => ⟨text_mem_candidates hroot hin, ?_⟩,
    fun root name name' hends hends' h => ?_⟩
  · have hnames : p.resolve.map .name = Path.settled 0 p.resolve := rfl
    rw [hsettled, hnames, Path.mk.injEq, Path.settled_inj, Nat.even_iff]
    simp
  · rw [p.steps_normalize, Path.settled_of_even heven]
    simp
  · rintro text rfl
    have hnormal : Path.Normal (Path.ofString text).normalize.steps :=
      Path.normal_normalize fun _ => Path.ofString_spelled
    have habs : (Path.ofString text).normalize = ⟨true, (Path.ofString text).normalize.steps⟩ :=
      congrArg (Path.mk · _) hp
    rw [habs]
    exact Path.ofString_text hnormal.spelled
  · rw [h.normalize_eq hfs] at hin ⊢
    exact text_mem_candidates hroot hin
  · rw [resolve_request hends, resolve_request hends', h]

/-- A file system without files, seen from `/srv`. -/
def bare : FileSystem :=
  ⟨⟨true, [.name "srv"]⟩, fun _ => false, fun _ => none, fun _ => .error .missing⟩

/-- Two spellings of one page. -/
theorem lexical_resolution_page :
    let d : Directories := ⟨["/views", "x/../inc"], ".liquid"⟩
    let p : Path := ⟨true, [.name "a", .parent, .parent, .parent, .name "b"]⟩
    p.absolute = true ∧ bare.workingDirectory.absolute = true ∧
    Even p.strays ∧ p.normalize = ⟨true, [.name "b"]⟩ ∧
    (∀ root ∈ d.roots, Meet d bare root "b/.././page" "page") ∧
    d.candidates bare "b/.././page" = d.candidates bare "page" ∧
    "/srv/inc/page.liquid" ∈ d.candidates bare "b/.././page" ∧
    (d.request bare "/views" "b/.././page").resolve = (d.request bare "/views" "page").resolve := by
  intro d p
  have hp : p.absolute = true := rfl
  have hfs : bare.workingDirectory.absolute = true := rfl
  have heven : Even p.strays := by decide
  obtain ⟨⟨-, hpath, -, -, -⟩, hsame, hshared, hends⟩ := lexical_resolution hp d hfs
  have hmeet : ∀ root ∈ d.roots, Meet d bare root "b/.././page" "page" := by
    intro root hroot
    rcases List.mem_cons.1 hroot with rfl | hroot
    · exact ⟨by decide, by decide, by decide⟩
    · obtain rfl := List.mem_singleton.1 hroot
      exact ⟨by decide, by decide, by decide⟩
  have hkey : (d.request bare "x/../inc" "b/.././page").normalize.text = "/srv/inc/page.liquid" := by
    decide
  have hlast : Path.EndsWith "page" [] ['p', 'a', 'g', 'e'] :=
    ⟨by decide, .inl rfl, by decide, by decide⟩
  have hlast' : Path.EndsWith "b/.././page" ['b', '/', '.', '.', '/', '.', '/'] ['p', 'a', 'g', 'e'] :=
    ⟨by decide, .inr ⟨['b', '/', '.', '.', '/', '.'], rfl⟩, by decide, by decide⟩
  exact ⟨hp, hfs, heven, hpath.2 heven, hmeet, hsame _ _ (by decide) (by decide) hmeet,
    hkey ▸ (hshared "x/../inc" (by decide) _ _ (hmeet _ (by decide)) (by decide)).1,
    hends "/views" _ _ ⟨_, _, hlast'⟩ ⟨_, _, hlast⟩ (by decide)⟩

/-- The root directory is not its own parent for `normalize`: the step stays, and the next one takes it
back. So names of one page have different keys. -/
theorem normalize_above_root :
    (Path.ofString "/../page").absolute = true ∧
    (Path.ofString "/../page").normalize ≠ ⟨true, (Path.ofString "/../page").resolve.map .name⟩ ∧
    .parent ∈ (Path.ofString "/../page").normalize.steps ∧
    (request ⟨["/"], ""⟩ bare "/" "../page").resolve = (request ⟨["/"], ""⟩ bare "/" "page").resolve ∧
    candidates ⟨["/"], ""⟩ bare "page" = ["/page"] ∧
    candidates ⟨["/"], ""⟩ bare "../page" = ["/../page"] ∧
    candidates ⟨["/"], ""⟩ bare "../../page" = ["/page"] := by
  decide

end Directories

end Stencil

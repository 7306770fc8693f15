import Marreta.Foundation.Ensures
import Marreta.Foundation.Table
import Mathlib

namespace Marreta

open Foundation

/-! Cycles of schema references.

The validator follows a reference only into a schema that is not persistent.  A
cycle is disallowed when it never leaves these schemas, and the search walks
through them only. -/

/-- The names that each schema refers to. -/
abbrev References := Table String (List String)

namespace References

variable (refs : References) (persistent : List String)

def of (name : String) : List String :=
  (refs.lookup name).getD []

/-- The validator follows a reference of `name` into `next`. -/
def Follows (next name : String) : Prop :=
  next ∈ refs.of name ∧ next ∉ persistent

/-- The way from the first visit of a node to its second. -/
def cycleAt (path : List String) (next : String) : List String :=
  path.dropWhile (· ≠ next) ++ [next]

/-- Depth-first search: a cycle, or all nodes visited so far.  The names on the
path are different keys, so the depth is at most the number of schemas. -/
def walk : Nat → String → List String → List String →
    Except (List String) (List String)
  | 0, _, _, visited => .ok visited
  | depth + 1, node, path, visited => do
      let path := path ++ [node]
      let visited ← ((refs.of node).insertionSort (· ≤ ·)).foldlM
        (fun visited next =>
          if next ∈ persistent then .ok visited
          else if next ∈ path then .error (cycleAt path next)
          else if next ∈ refs.keys ∧ next ∉ visited then walk depth next path visited
          else .ok visited)
        visited
      return node :: visited

/-- The search from one schema, with nothing visited. -/
def walkFrom (start : String) : Option (List String) :=
  match walk refs persistent refs.length start [] [] with
  | .error cycle => some cycle
  | .ok _ => none

/-- The first disallowed cycle. -/
def findDisallowedCycle : Option (List String) :=
  ((refs.keys.filter (· ∉ persistent)).insertionSort (· ≤ ·)).findSome?
    (walkFrom refs persistent)

/-! ## A search that finds nothing -/

/-- One step of the loop over the references of a node. -/
def visit (depth : Nat) (path visited : List String) (next : String) :
    Except (List String) (List String) :=
  if next ∈ persistent then .ok visited
  else if next ∈ path then .error (cycleAt path next)
  else if next ∈ refs.keys ∧ next ∉ visited then walk refs persistent depth next path visited
  else .ok visited

variable {refs persistent}

theorem walk_succ (depth : Nat) (node : String) (path visited : List String) :
    walk refs persistent (depth + 1) node path visited =
      (((refs.of node).insertionSort (· ≤ ·)).foldlM
        (visit refs persistent depth (path ++ [node])) visited >>=
          fun visited => .ok (node :: visited)) := rfl

/-- No endless chain of followed references starts at the name. -/
def Grounded (refs : References) (persistent : List String) (name : String) : Prop :=
  Acc (refs.Follows persistent) name

theorem grounded_of_not_mem {name : String} (absent : name ∉ refs.keys) :
    Grounded refs persistent name := by
  refine ⟨_, fun next follows => ?_⟩
  have none : refs.lookup name = none := by
    rw [← Option.not_isSome_iff_eq_none, Table.lookup_isSome]
    exact absent
  have empty : next ∈ ([] : List String) := by simpa [of, none] using follows.1
  cases empty

/-- The path of a search: different keys, and enough depth for the rest. -/
structure Descends (refs : References) (depth : Nat) (path : List String) : Prop where
  distinct : path.Nodup
  keys : path ⊆ refs.keys
  enough : refs.length ≤ depth + path.length

theorem Descends.snoc {depth : Nat} {path : List String} {node : String}
    (descends : Descends refs (depth + 1) path) (key : node ∈ refs.keys)
    (fresh : node ∉ path) : Descends refs depth (path ++ [node]) := by
  refine ⟨?_, ?_, ?_⟩
  · rw [List.nodup_append]
    refine ⟨descends.distinct, List.nodup_singleton node, ?_⟩
    rintro name member other single rfl
    exact fresh (List.mem_singleton.mp single ▸ member)
  · intro name member
    rcases List.mem_append.mp member with member | single
    · exact descends.keys member
    · rw [List.mem_singleton.mp single]
      exact key
  · have enough := descends.enough
    simp only [List.length_append, List.length_singleton]
    omega

/-- The depth does not run out. -/
theorem Descends.pos {path : List String} {node : String} {depth : Nat}
    (descends : Descends refs depth path) (key : node ∈ refs.keys) (fresh : node ∉ path) :
    0 < depth := by
  have longer : (node :: path).length ≤ refs.keys.length := by
    apply List.Subperm.length_le
    apply List.Nodup.subperm
    · exact List.nodup_cons.mpr ⟨fresh, descends.distinct⟩
    · exact List.cons_subset.mpr ⟨key, descends.keys⟩
  have enough := descends.enough
  simp only [List.length_cons, Table.keys, List.length_map] at longer
  omega

/-- What a finished part of the search leaves behind. -/
def Sound (refs : References) (persistent visited : List String) : Prop :=
  ∀ name ∈ visited, Grounded refs persistent name

theorem foldlM_visit {depth : Nat} {path : List String} {nexts visited after : List String}
    (step : ∀ next ∈ nexts, next ∉ persistent → next ∉ path → next ∈ refs.keys →
      ∀ visited after, Sound refs persistent visited →
        walk refs persistent depth next path visited = .ok after →
          Sound refs persistent after ∧ next ∈ after)
    (sound : Sound refs persistent visited)
    (walked : nexts.foldlM (visit refs persistent depth path) visited =
      .ok after) :
    Sound refs persistent after ∧
      ∀ next ∈ nexts, next ∉ persistent → Grounded refs persistent next := by
  induction nexts generalizing visited with
  | nil =>
      obtain rfl : visited = after := Except.ok.inj walked
      exact ⟨sound, by simp⟩
  | cons next nexts ih =>
      rw [List.foldlM_cons, bind_eq_ok] at walked
      obtain ⟨middle, visits, walked⟩ := walked
      have one : Sound refs persistent middle ∧
          (next ∉ persistent → Grounded refs persistent next) := by
        unfold visit at visits
        split at visits
        · rename_i inside
          obtain rfl := Except.ok.inj visits
          exact ⟨sound, fun outside => absurd inside outside⟩
        rename_i outside
        split at visits
        · cases visits
        rename_i fresh
        split at visits
        · rename_i unseen
          obtain ⟨grounded, member⟩ :=
            step next List.mem_cons_self outside fresh unseen.1 _ _ sound visits
          exact ⟨grounded, fun _ => grounded next member⟩
        · rename_i seen
          obtain rfl := Except.ok.inj visits
          refine ⟨sound, fun _ => ?_⟩
          by_cases key : next ∈ refs.keys
          · exact sound next (by_contra fun unseen => seen ⟨key, unseen⟩)
          · exact grounded_of_not_mem key
      obtain ⟨rest, others⟩ :=
        ih (fun next member => step next (List.mem_cons_of_mem _ member)) one.1 walked
      refine ⟨rest, fun other member => ?_⟩
      rcases List.mem_cons.mp member with rfl | member
      · exact one.2
      · exact others other member

/-- All a search without result has visited is grounded. -/
theorem walk_sound {depth : Nat} {node : String} {path visited after : List String}
    (descends : Descends refs depth path) (key : node ∈ refs.keys) (fresh : node ∉ path)
    (sound : Sound refs persistent visited)
    (walked : walk refs persistent depth node path visited = .ok after) :
    Sound refs persistent after ∧ node ∈ after := by
  induction depth generalizing node path visited after with
  | zero =>
      have pos := descends.pos key fresh
      omega
  | succ depth ih =>
      rw [walk_succ, bind_eq_ok] at walked
      obtain ⟨middle, loop, last⟩ := walked
      obtain rfl := Except.ok.inj last
      obtain ⟨inner, nexts⟩ := foldlM_visit
        (fun next _ _ fresh' key' visited after sound' walked' =>
          ih (descends.snoc key fresh) key' fresh' sound' walked') sound loop
      have grounded : Grounded refs persistent node := by
        refine ⟨_, fun next follows => nexts next ?_ follows.2⟩
        rw [List.mem_insertionSort]
        exact follows.1
      refine ⟨?_, List.mem_cons_self⟩
      intro name member
      rcases List.mem_cons.mp member with rfl | member
      · exact grounded
      · exact inner name member

theorem grounded_of_none (none : findDisallowedCycle refs persistent = none) (name : String)
    (value : name ∉ persistent) : Grounded refs persistent name := by
  by_cases key : name ∈ refs.keys
  · rw [findDisallowedCycle, List.findSome?_eq_none_iff] at none
    have finished := none name (by
      rw [List.mem_insertionSort, List.mem_filter]
      exact ⟨key, by simpa using value⟩)
    unfold walkFrom at finished
    split at finished
    · cases finished
    · rename_i visited walked
      have start : Descends refs refs.length [] :=
        ⟨List.nodup_nil, List.nil_subset _, Nat.le_add_right _ _⟩
      obtain ⟨sound, member⟩ :=
        walk_sound start key List.not_mem_nil (fun _ member => absurd member List.not_mem_nil) walked
      exact sound name member
  · exact grounded_of_not_mem key

theorem Grounded.not_leads {name : String} (grounded : Grounded refs persistent name) :
    ¬ Relation.TransGen (refs.Follows persistent) name name := by
  intro cycle
  have accessible := grounded.transGen
  clear grounded
  induction accessible with
  | intro name _ ih => exact ih name cycle cycle

/-- Without a disallowed cycle no schema leads back to itself. -/
theorem acyclic_of_none (none : findDisallowedCycle refs persistent = none) (name : String) :
    ¬ Relation.TransGen (refs.Follows persistent) name name := by
  intro cycle
  have value : name ∉ persistent := by
    cases cycle using Relation.TransGen.head_induction_on with
    | single follows => exact follows.2
    | head follows _ => exact follows.2
  exact (grounded_of_none none name value).not_leads cycle

/-! ## A search that finds a cycle -/

/-- A closed walk that never enters a persistent schema. -/
structure ClosedWalk (refs : References) (persistent cycle : List String) : Prop where
  long : 2 ≤ cycle.length
  closed : cycle.head? = cycle.getLast?
  value : ∀ name ∈ cycle, name ∉ persistent
  edges : cycle.IsChain fun name next => next ∈ refs.of name

/-- A cycle as the search reports it: no other name occurs twice. -/
structure DisallowedCycle (refs : References) (persistent cycle : List String) : Prop
    extends ClosedWalk refs persistent cycle where
  distinct : cycle.dropLast.Nodup

theorem ClosedWalk.leads {cycle : List String} (walk : ClosedWalk refs persistent cycle) :
    ∃ start, cycle.head? = some start ∧
      Relation.TransGen (refs.Follows persistent) start start := by
  obtain ⟨long, closed, value, edges⟩ := walk
  match cycle, long with
  | first :: second :: rest, _ =>
      refine ⟨first, rfl, ?_⟩
      have last : (second :: rest).getLast? = some first := by
        rw [← List.getLast?_cons_cons, ← closed, List.head?_cons]
      have below : ∀ (names : List String) (name : String),
          (name :: names).IsChain (fun name next => next ∈ refs.of name) →
          (∀ other ∈ name :: names, other ∉ persistent) →
          ∀ final, names.getLast? = some final →
            Relation.TransGen (refs.Follows persistent) final name := by
        intro names
        induction names with
        | nil =>
            intro name _ _ final found
            cases found
        | cons next names ih =>
            intro name chain value final found
            obtain ⟨edge, chain⟩ := List.isChain_cons_cons.mp chain
            have follows : refs.Follows persistent next name :=
              ⟨edge, value next (List.mem_cons_of_mem _ List.mem_cons_self)⟩
            cases names with
            | nil =>
                obtain rfl := Option.some.inj found
                exact .single follows
            | cons third names =>
                exact .tail (ih next chain (fun other member =>
                  value other (List.mem_cons_of_mem _ member)) final
                    (List.getLast?_cons_cons.symm.trans found)) follows
      exact below (second :: rest) first edges value first last

theorem cycleAt_eq {path : List String} {next : String} (member : next ∈ path) :
    ∃ before after, path = before ++ next :: after ∧
      cycleAt path next = next :: after ++ [next] := by
  induction path with
  | nil => cases member
  | cons first path ih =>
      by_cases same : first = next
      · exact ⟨[], path, by rw [same]; rfl, by simp [cycleAt, same]⟩
      · have rest : next ∈ path := by
          rcases List.mem_cons.mp member with equal | rest
          · exact absurd equal.symm same
          · exact rest
        obtain ⟨before, after, split, cycle⟩ := ih rest
        refine ⟨first :: before, after, by rw [split]; rfl, ?_⟩
        rw [cycleAt, List.dropWhile_cons_of_pos (by simpa using same)]
        exact cycle

/-- The path of a search with the node it stands at. -/
structure Trail (refs : References) (persistent trail : List String) : Prop where
  distinct : trail.Nodup
  value : ∀ name ∈ trail, name ∉ persistent
  edges : trail.IsChain fun name next => next ∈ refs.of name

theorem Trail.snoc {path : List String} {node next : String}
    (trail : Trail refs persistent (path ++ [node])) (edge : next ∈ refs.of node)
    (value : next ∉ persistent) (fresh : next ∉ path ++ [node]) :
    Trail refs persistent (path ++ [node] ++ [next]) := by
  refine ⟨?_, ?_, ?_⟩
  · rw [List.nodup_append]
    refine ⟨trail.distinct, List.nodup_singleton next, ?_⟩
    rintro name member other single rfl
    exact fresh (List.mem_singleton.mp single ▸ member)
  · intro name member
    rcases List.mem_append.mp member with member | single
    · exact trail.value name member
    · rw [List.mem_singleton.mp single]
      exact value
  · apply trail.edges.append (.singleton next)
    intro last found first same
    rw [List.getLast?_concat] at found
    obtain rfl := Option.some.inj found
    obtain rfl := Option.some.inj same
    exact edge

/-- A reference back to the path closes a cycle. -/
theorem Trail.closes {path : List String} {node next : String}
    (trail : Trail refs persistent (path ++ [node])) (edge : next ∈ refs.of node)
    (member : next ∈ path ++ [node]) :
    DisallowedCycle refs persistent (cycleAt (path ++ [node]) next) := by
  obtain ⟨before, after, split, cycle⟩ := cycleAt_eq member
  have last : (next :: after).getLast? = some node := by
    have whole : (before ++ next :: after).getLast? = some node := by
      rw [← split, List.getLast?_concat]
    rw [List.getLast?_append] at whole
    cases found : (next :: after).getLast? with
    | none => simp at found
    | some name =>
        rw [found] at whole
        exact whole
  obtain ⟨distinct, value, edges⟩ := trail
  rw [split] at distinct value edges
  rw [cycle]
  refine ⟨⟨?_, ?_, ?_, ?_⟩, ?_⟩
  · simp
  · rw [List.getLast?_concat]
    rfl
  · intro name member
    rcases List.mem_append.mp member with member | single
    · exact value name (List.mem_append_right _ member)
    · rw [List.mem_singleton.mp single]
      exact value next (List.mem_append_right _ List.mem_cons_self)
  · apply edges.right_of_append.append (.singleton next)
    intro name found first same
    obtain rfl := Option.some.inj (last.symm.trans found)
    obtain rfl := Option.some.inj same
    exact edge
  · rw [List.dropLast_concat]
    exact (List.nodup_append.mp distinct).2.1

theorem walk_disallowed {depth : Nat} {node : String} {path visited cycle : List String}
    (trail : Trail refs persistent (path ++ [node]))
    (walked : walk refs persistent depth node path visited = .error cycle) :
    DisallowedCycle refs persistent cycle := by
  induction depth generalizing node path visited with
  | zero => cases walked
  | succ depth ih =>
      rw [walk_succ] at walked
      cases loop : ((refs.of node).insertionSort (· ≤ ·)).foldlM
          (visit refs persistent depth (path ++ [node])) visited with
      | ok after =>
          rw [loop] at walked
          cases walked
      | error found =>
          rw [loop] at walked
          obtain rfl : found = cycle := Except.error.inj walked
          obtain ⟨next, member, before, fails⟩ := foldlM_eq_error loop
          rw [List.mem_insertionSort] at member
          unfold visit at fails
          split at fails
          · cases fails
          rename_i value
          split at fails
          · rename_i closed
            obtain rfl := Except.error.inj fails
            exact trail.closes member closed
          rename_i fresh
          split at fails
          · exact ih (trail.snoc member value fresh) fails
          · cases fails

/-- What the search finds is a cycle. -/
theorem disallowed_of_some {cycle : List String}
    (found : findDisallowedCycle refs persistent = some cycle) :
    DisallowedCycle refs persistent cycle := by
  obtain ⟨start, member, found⟩ := List.exists_of_findSome?_eq_some found
  rw [List.mem_insertionSort, List.mem_filter] at member
  unfold walkFrom at found
  split at found
  · rename_i other walked
    obtain rfl := Option.some.inj found
    refine walk_disallowed ⟨List.nodup_singleton start, ?_, .singleton start⟩ walked
    intro name single
    rw [List.mem_singleton.mp single]
    simpa using member.2
  · cases found

/-- A cycle as the loader and the linter use it: it starts at a schema that leads back to
itself. -/
def ClosesAt (refs : References) (persistent cycle : List String) : Prop :=
  ∃ start ∈ refs.keys, cycle.head? = some start ∧
    Relation.TransGen (refs.Follows persistent) start start

theorem closes_of_some {cycle : List String}
    (found : findDisallowedCycle refs persistent = some cycle) :
    ClosesAt refs persistent cycle := by
  obtain ⟨start, head, leads⟩ := (disallowed_of_some found).leads
  refine ⟨start, ?_, head, leads⟩
  by_contra absent
  exact (grounded_of_not_mem absent).not_leads leads

/-- The search finds a cycle if and only if there is one. -/
theorem findDisallowedCycle_isSome {refs : References} {persistent : List String} :
    (findDisallowedCycle refs persistent).isSome = true ↔
      ∃ name, Relation.TransGen (refs.Follows persistent) name name := by
  constructor
  · intro found
    obtain ⟨cycle, found⟩ := Option.isSome_iff_exists.mp found
    obtain ⟨start, -, -, leads⟩ := closes_of_some found
    exact ⟨start, leads⟩
  · rintro ⟨name, cycle⟩
    rw [Option.isSome_iff_ne_none]
    exact fun none => acyclic_of_none none name cycle

/-! ## The search ends -/

mutual
/-- The search as the source writes it, without a bound on its depth. -/
inductive Walks (refs : References) (persistent : List String) :
    String → List String → List String → Except (List String) (List String) → Prop
  | closes {node : String} {path visited cycle : List String}
      (visits : VisitsAll refs persistent ((refs.of node).insertionSort (· ≤ ·)) (path ++ [node])
        visited (.error cycle)) : Walks refs persistent node path visited (.error cycle)
  | leaves {node : String} {path visited after : List String}
      (visits : VisitsAll refs persistent ((refs.of node).insertionSort (· ≤ ·)) (path ++ [node])
        visited (.ok after)) : Walks refs persistent node path visited (.ok (node :: after))

/-- The loop over the references of a node. -/
inductive VisitsAll (refs : References) (persistent : List String) :
    List String → List String → List String → Except (List String) (List String) → Prop
  | done {path visited : List String} :
      VisitsAll refs persistent [] path visited (.ok visited)
  | relation {next : String} {nexts path visited : List String}
      {result : Except (List String) (List String)} (relation : next ∈ persistent)
      (rest : VisitsAll refs persistent nexts path visited result) :
      VisitsAll refs persistent (next :: nexts) path visited result
  | backEdge {next : String} {nexts path visited : List String} (value : next ∉ persistent)
      (inside : next ∈ path) :
      VisitsAll refs persistent (next :: nexts) path visited (.error (cycleAt path next))
  | found {next : String} {nexts path visited cycle : List String} (value : next ∉ persistent)
      (fresh : next ∉ path) (unseen : next ∈ refs.keys ∧ next ∉ visited)
      (walks : Walks refs persistent next path visited (.error cycle)) :
      VisitsAll refs persistent (next :: nexts) path visited (.error cycle)
  | walked {next : String} {nexts path visited middle : List String}
      {result : Except (List String) (List String)} (value : next ∉ persistent)
      (fresh : next ∉ path) (unseen : next ∈ refs.keys ∧ next ∉ visited)
      (walks : Walks refs persistent next path visited (.ok middle))
      (rest : VisitsAll refs persistent nexts path middle result) :
      VisitsAll refs persistent (next :: nexts) path visited result
  | passed {next : String} {nexts path visited : List String}
      {result : Except (List String) (List String)} (value : next ∉ persistent)
      (fresh : next ∉ path) (seen : ¬ (next ∈ refs.keys ∧ next ∉ visited))
      (rest : VisitsAll refs persistent nexts path visited result) :
      VisitsAll refs persistent (next :: nexts) path visited result
end

theorem visitsAll_foldlM {depth : Nat} {path : List String}
    (step : ∀ next visited, next ∉ path → next ∈ refs.keys →
      Walks refs persistent next path visited (walk refs persistent depth next path visited))
    (nexts visited : List String) :
    VisitsAll refs persistent nexts path visited
      (nexts.foldlM (visit refs persistent depth path) visited) := by
  induction nexts generalizing visited with
  | nil => exact .done
  | cons next nexts ih =>
      rw [List.foldlM_cons]
      unfold visit
      split
      · rename_i relation
        exact .relation relation (ih visited)
      rename_i value
      split
      · rename_i inside
        exact .backEdge value inside
      rename_i fresh
      split
      · rename_i unseen
        have walks := step next visited fresh unseen.1
        generalize walk refs persistent depth next path visited = result at walks
        cases result with
        | error cycle => exact .found value fresh unseen walks
        | ok middle => exact .walked value fresh unseen walks (ih middle)
      · rename_i seen
        exact .passed value fresh seen (ih visited)

/-- The depth is enough for the search: it does what the unbounded one does. -/
theorem walks_walk {depth : Nat} {node : String} {path : List String}
    (descends : Descends refs depth path) (key : node ∈ refs.keys) (fresh : node ∉ path)
    (visited : List String) :
    Walks refs persistent node path visited (walk refs persistent depth node path visited) := by
  induction depth generalizing node path visited with
  | zero =>
      have pos := descends.pos key fresh
      omega
  | succ depth ih =>
      have deeper := descends.snoc key fresh
      have visits := visitsAll_foldlM
        (fun next visited fresh key => ih deeper key fresh visited)
        ((refs.of node).insertionSort (· ≤ ·)) visited
      rw [walk_succ]
      cases loop : ((refs.of node).insertionSort (· ≤ ·)).foldlM
          (visit refs persistent depth (path ++ [node])) visited with
      | error cycle =>
          rw [loop] at visits
          exact .closes visits
      | ok after =>
          rw [loop] at visits
          exact .leaves visits

/-- The search ends, finds a cycle if and only if there is one, and reports a cycle without
repetition. -/
theorem findDisallowedCycle_correct (refs : References) (persistent : List String) :
    (∀ start ∈ refs.keys, Walks refs persistent start [] []
      (walk refs persistent refs.length start [] [])) ∧
    ((findDisallowedCycle refs persistent).isSome = true ↔
      ∃ cycle, ClosedWalk refs persistent cycle) ∧
    ∀ path, findDisallowedCycle refs persistent = some path →
      DisallowedCycle refs persistent path := by
  refine ⟨fun start key => ?_, ?_, fun path found => disallowed_of_some found⟩
  · apply walks_walk _ key List.not_mem_nil
    exact ⟨List.nodup_nil, List.nil_subset _, Nat.le_add_right _ _⟩
  · constructor
    · intro found
      obtain ⟨cycle, found⟩ := Option.isSome_iff_exists.mp found
      exact ⟨cycle, (disallowed_of_some found).toClosedWalk⟩
    · rintro ⟨cycle, walk⟩
      obtain ⟨start, -, leads⟩ := walk.leads
      exact findDisallowedCycle_isSome.mpr ⟨start, leads⟩

end References
end Marreta

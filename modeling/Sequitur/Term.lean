/-!
# Terms

The trees that rules are made of: symbols, subscripts `x[i]`, applications `f(x)`, and
prefix and infix operators. A grouping node holds a term in parentheses and means the
term inside it; `normalized` removes these nodes and the readers never make them.

* `walk` lists every node of a term, each before its parts;
* `size` counts the nodes that are not grouping nodes;
* `isNormalized` says that there is no grouping node.
-/

namespace Sequitur

/-- A term of a rule. -/
inductive Term where
  | symbol (name : String)
  | parenthesized (inner : Term)
  | subscript (base : Term) (indices : List Term)
  | application (function : Term) (arguments : List Term)
  | unary (operator : String) (operand : Term)
  | binary (operator : String) (left right : Term)
  deriving Repr, Inhabited

namespace Term

/-! ### Equality -/

mutual

def decEq : (a b : Term) → Decidable (a = b)
  | .symbol a, .symbol b =>
      if h : a = b then isTrue (by rw [h]) else isFalse (by simp [h])
  | .parenthesized a, .parenthesized b =>
      match decEq a b with
      | isTrue h => isTrue (by rw [h])
      | isFalse h => isFalse (by simp [h])
  | .subscript a as, .subscript b bs =>
      match decEq a b, decEqAll as bs with
      | isTrue h, isTrue hs => isTrue (by rw [h, hs])
      | isFalse h, _ => isFalse (by simp [h])
      | _, isFalse hs => isFalse (by simp [hs])
  | .application a as, .application b bs =>
      match decEq a b, decEqAll as bs with
      | isTrue h, isTrue hs => isTrue (by rw [h, hs])
      | isFalse h, _ => isFalse (by simp [h])
      | _, isFalse hs => isFalse (by simp [hs])
  | .unary p a, .unary q b =>
      if hop : p = q then
        match decEq a b with
        | isTrue h => isTrue (by rw [hop, h])
        | isFalse h => isFalse (by simp [h])
      else isFalse (by simp [hop])
  | .binary p a c, .binary q b d =>
      if hop : p = q then
        match decEq a b, decEq c d with
        | isTrue h, isTrue h' => isTrue (by rw [hop, h, h'])
        | isFalse h, _ => isFalse (by simp [h])
        | _, isFalse h' => isFalse (by simp [h'])
      else isFalse (by simp [hop])
  | .symbol _, .parenthesized _ | .symbol _, .subscript .. | .symbol _, .application ..
  | .symbol _, .unary .. | .symbol _, .binary ..
  | .parenthesized _, .symbol _ | .parenthesized _, .subscript ..
  | .parenthesized _, .application .. | .parenthesized _, .unary ..
  | .parenthesized _, .binary ..
  | .subscript .., .symbol _ | .subscript .., .parenthesized _
  | .subscript .., .application .. | .subscript .., .unary .. | .subscript .., .binary ..
  | .application .., .symbol _ | .application .., .parenthesized _
  | .application .., .subscript .. | .application .., .unary .. | .application .., .binary ..
  | .unary .., .symbol _ | .unary .., .parenthesized _ | .unary .., .subscript ..
  | .unary .., .application .. | .unary .., .binary ..
  | .binary .., .symbol _ | .binary .., .parenthesized _ | .binary .., .subscript ..
  | .binary .., .application .. | .binary .., .unary .. => isFalse (by simp)

def decEqAll : (as bs : List Term) → Decidable (as = bs)
  | [], [] => isTrue rfl
  | a :: as, b :: bs =>
      match decEq a b, decEqAll as bs with
      | isTrue h, isTrue hs => isTrue (by rw [h, hs])
      | isFalse h, _ => isFalse (by simp [h])
      | _, isFalse hs => isFalse (by simp [hs])
  | [], _ :: _ | _ :: _, [] => isFalse (by simp)

end

instance : DecidableEq Term := decEq

/-! ### Nodes -/

def children : Term → List Term
  | .symbol _ => []
  | .parenthesized inner => [inner]
  | .subscript base indices => base :: indices
  | .application function arguments => function :: arguments
  | .unary _ operand => [operand]
  | .binary _ left right => [left, right]

mutual

/-- Every node of a term, each before its parts and the parts from left to right. -/
def walk : Term → List Term
  | .symbol name => [.symbol name]
  | .parenthesized inner => .parenthesized inner :: inner.walk
  | .subscript base indices => .subscript base indices :: (base.walk ++ walkAll indices)
  | .application function arguments =>
      .application function arguments :: (function.walk ++ walkAll arguments)
  | .unary operator operand => .unary operator operand :: operand.walk
  | .binary operator left right => .binary operator left right :: (left.walk ++ right.walk)

def walkAll : List Term → List Term
  | [] => []
  | term :: terms => term.walk ++ walkAll terms

end

theorem walkAll_eq_flatMap (terms : List Term) : walkAll terms = terms.flatMap walk := by
  induction terms with
  | nil => rfl
  | cons term terms ih => rw [walkAll, ih, List.flatMap_cons]

/-- A term is visited before its parts, and each part is visited in the same way. -/
theorem walk_eq (term : Term) : term.walk = term :: term.children.flatMap walk := by
  cases term <;> simp [walk, children, walkAll_eq_flatMap]

def isParenthesized : Term → Bool
  | .parenthesized _ => true
  | _ => false

/-- The number of nodes of a term that are not grouping nodes. -/
def size (term : Term) : Nat := (term.walk.filter (!·.isParenthesized)).length

def sizeAll : List Term → Nat
  | [] => 0
  | term :: terms => term.size + sizeAll terms

/-! ### Normal form -/

mutual

def normalized : Term → Term
  | .symbol name => .symbol name
  | .parenthesized inner => inner.normalized
  | .subscript base indices => .subscript base.normalized (normalizedAll indices)
  | .application function arguments =>
      .application function.normalized (normalizedAll arguments)
  | .unary operator operand => .unary operator operand.normalized
  | .binary operator left right => .binary operator left.normalized right.normalized

def normalizedAll : List Term → List Term
  | [] => []
  | term :: terms => term.normalized :: normalizedAll terms

end

theorem normalizedAll_eq_map (terms : List Term) :
    normalizedAll terms = terms.map normalized := by
  induction terms with
  | nil => rfl
  | cons term terms ih => rw [normalizedAll, ih, List.map_cons]

/-- A term is normalized when none of its nodes is a grouping node. -/
def isNormalized (term : Term) : Bool := term.walk.all (!·.isParenthesized)

end Term

end Sequitur

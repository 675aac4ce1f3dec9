import EdaParts.Geometry.Point

/-!
# Lengths of Bezier curves

The length is the integral of the speed over the parameter from 0 to 1. A curve of second degree has
a closed formula, except where it is next to straight. A curve of third degree is measured at 8, 16
or 24 points, by an estimate of the error, and in two halves where none of them is enough.

* `quadraticLength`, `cubicLength` : the lengths;
* `Middle` : a curve of third degree by its derivatives in the middle;
* `nodes8`, `nodes16`, `nodes24` : weights and points of Gauss and Legendre. Half of the points
  stand there, and the others are their images on the other side of the middle.
-/

namespace EdaParts

namespace Bezier

/-- The scalar product of two vectors. -/
def dot (p q : Point) : Float := p.x * q.x + p.y * q.y

/-- The square of the length of a vector. -/
def square (p : Point) : Float := dot p p

/-! ## Second degree -/

/-- The speed, summed over three points, of a curve that is next to straight. -/
def straightLength (p0 p1 p2 : Point) : Float :=
  let near := 0.492943519233745
  let middle := 0.430331482911935
  let far := 0.0626120363218102
  ((p0.scale (-near) + p1.scale middle) + p2.scale far).norm +
    ((p2 - p0).scale 0.4444444444444444).norm +
    ((p0.scale (-far) + p1.scale (-middle)) + p2.scale near).norm

/-- The length of a curve of second degree. -/
def quadraticLength (p0 p1 p2 : Point) : Float :=
  let bend := (p0 - p1.scale 2) + p2
  let a := square bend
  let c := square (p1 - p0)
  if a < 5e-4 * c then straightLength p0 p1 p2
  else
    let b := 2 * dot bend (p1 - p0)
    let last := (a + b + c).sqrt
    let inverse := Float.pow a (-0.5)
    let first := 2 * c.sqrt
    let turn := b * inverse + first
    let straight := 0.25 * inverse * inverse * b * (2 * last - first) + last
    if turn < 1e-13 then straight
    else
      straight + 0.25 * (inverse * (inverse * inverse)) * (4 * c * a - b * b) *
        (((2 * a + b) * inverse + 2 * last) / turn).log

/-! ## Third degree -/

/-- Eight points. -/
def nodes8 : List (Float × Float) :=
  [(0.3626837833783620, 0.1834346424956498), (0.3137066458778873, 0.5255324099163290),
   (0.2223810344533745, 0.7966664774136267), (0.1012285362903763, 0.9602898564975362)]

/-- Sixteen points. -/
def nodes16 : List (Float × Float) :=
  [(0.1894506104550685, 0.0950125098376374), (0.1826034150449236, 0.2816035507792589),
   (0.1691565193950025, 0.4580167776572274), (0.1495959888165767, 0.6178762444026437),
   (0.1246289712555339, 0.7554044083550030), (0.0951585116824928, 0.8656312023878317),
   (0.0622535239386479, 0.9445750230732326), (0.0271524594117541, 0.9894009349916499)]

/-- Twenty-four points. -/
def nodes24 : List (Float × Float) :=
  [(0.1279381953467522, 0.0640568928626056), (0.1258374563468283, 0.1911188674736163),
   (0.1216704729278034, 0.3150426796961634), (0.1155056680537256, 0.4337935076260451),
   (0.1074442701159656, 0.5454214713888395), (0.0976186521041139, 0.6480936519369756),
   (0.0861901615319533, 0.7401241915785544), (0.0733464814110803, 0.8200019859739029),
   (0.0592985849154368, 0.8864155270044010), (0.0442774388174198, 0.9382745520027328),
   (0.0285313886289337, 0.9747285559713095), (0.0123412297999872, 0.9951872199970214)]

/-- A curve of third degree by its first derivative in the middle, its second, and half of its
third, all of them a third in size. -/
structure Middle where
  first : Point
  second : Point
  third : Point

def Middle.ofCurve (p0 p1 p2 p3 : Point) : Middle :=
  let d01 := p1 - p0
  let d12 := p2 - p1
  let d23 := p3 - p2
  ⟨(d01 + d23).scale 0.25 + d12.scale 0.5, ((d23 - d12) + (d12 - d01)).scale 0.5,
   ((d23 - d12) - (d12 - d01)).scale 0.25⟩

/-- How much the curve bends for its speed at a point, times a weight. -/
def Middle.bending (m : Middle) (weight x : Float) : Float :=
  let velocity := (m.first + m.second.scale x) + m.third.scale (x * x)
  let acceleration := m.second + m.third.scale (2 * x)
  weight * (square acceleration / square velocity)

/-- How much the curve bends for its speed, over eight points. -/
def Middle.estimate (m : Middle) : Float :=
  nodes8.foldl (fun total (w, x) => total + m.bending w (-x) + m.bending w x) 0

/-- The length measured at points and their images. -/
def Middle.measure (m : Middle) (nodes : List (Float × Float)) : Float :=
  nodes.foldl (fun total (w, x) =>
    let even := m.first + m.third.scale (x * x)
    let odd := m.second.scale x
    total + 1.5 * w * ((even + odd).norm + (even - odd).norm)) 0

/-- The smaller of an estimate and a bound; one that is no number does not count. -/
def capped (estimate bound : Float) : Float :=
  if estimate < bound then estimate else bound

/-- The third power. -/
def cube (x : Float) : Float := x * (x * x)

/-- The length of a curve of third degree to an accuracy, in at most `2 ^ halvings` parts. -/
def cubicLengthWithin : (halvings : Nat) → (accuracy : Float) → (p0 p1 p2 p3 : Point) → Float
  | halvings, accuracy, p0, p1, p2, p3 =>
    let m := Middle.ofCurve p0 p1 p2 p3
    let slack := (p1 - p0).norm + (p2 - p1).norm + (p3 - p2).norm - (p3 - p0).norm
    let bend := cube m.estimate
    if capped (bend * 2.5e-6) 3e-2 * slack < accuracy then m.measure nodes8
    else if capped (bend * bend * 1.5e-11) 9e-3 * slack < accuracy then m.measure nodes16
    else if capped (cube bend * 3.5e-16) 3.5e-3 * slack < accuracy then m.measure nodes24
    else
      match halvings with
      | 0 => m.measure nodes24
      | halvings + 1 =>
        let half (p q : Point) := (p + q).scale 0.5
        let q0 := half p0 p1
        let q1 := half p1 p2
        let q2 := half p2 p3
        let r0 := half q0 q1
        let r1 := half q1 q2
        let middle := half r0 r1
        cubicLengthWithin halvings (accuracy * 0.5) p0 q0 r0 middle +
          cubicLengthWithin halvings (accuracy * 0.5) middle r1 q2 p3

/-- The accuracy of lengths. -/
def accuracy : Float := 1e-6

/-- The length of a curve of third degree. -/
def cubicLength (p0 p1 p2 p3 : Point) : Float :=
  cubicLengthWithin 20 accuracy p0 p1 p2 p3

end Bezier

end EdaParts

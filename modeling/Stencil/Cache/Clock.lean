
namespace Stencil.Clock

def longest : Int := 9223372036854775807

/-- A time as it is kept. One that does not fit comes round. -/
def stamp (t : Int) : Int :=
  t.bmod 18446744073709551616

def since (now past : Int) : Int :=
  max (-longest - 1) (min (now - past) longest)

end Stencil.Clock

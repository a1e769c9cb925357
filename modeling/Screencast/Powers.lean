/-!
# Powers

A power of a natural number or of an integer whose exponent is a natural number is the core
library's, also where another reading of it is in scope.
-/

attribute [instance (2000)] instPowNat instNatPowNat Int.instNatPow

attribute [default_instance 20000] instPowNat

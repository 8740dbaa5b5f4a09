/-
Powers of numbers.

A power with a natural exponent is the one of the core library in every module, whatever else the module imports, so that
bounds and widths written as powers are the same terms everywhere.
-/
attribute [instance (1100), default_instance 11000] instPowNat

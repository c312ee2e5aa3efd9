import CodeAtlas.Text.Blank
import CodeAtlas.Text.Packed

/-!
# Tables of code points

The tables that no proof evaluates are kept in one packed text, a table in each line. A table is
entries with blanks between, each of some numbers in base sixteen with points between.
-/

namespace CodeAtlas.Text.Table

/-- The value of a digit in base sixteen. -/
def digit (c : Char) : Nat :=
  if c ≤ '9' then c.toNat - '0'.toNat else c.toNat - 'a'.toNat + 10

/-- The entries of a line, after the numbers and the number at hand of the entry that has begun. -/
def entriesFrom (numbers : List Nat) (number : Nat) : List Char → List (List Nat)
  | [] => [numbers ++ [number]]
  | c :: rest =>
    if c = ' ' then (numbers ++ [number]) :: entriesFrom [] 0 rest
    else if c = '.' then entriesFrom (numbers ++ [number]) 0 rest
    else entriesFrom numbers (number * 16 + digit c) rest

def packed : String :=
  "
_)4odm!+VD(Mx$6ZkM!+]GBTig+;wSawY2cgoM^YmHQB%RB!Qe)7oY_0ajq|J5i7)N|$wn6LOzm$]mgnq]/<siro[?bbh(sYqN(
zN]!U+Eq94.fy2;2|kBwGarLm]sKPvQgSc</cGY)+SZ~^T:Q*Uzmbs6.SnFt,rkQ!0yB~vRQd1xb,6NM$WlyQq1SevfwdLxE*1s
j2,&coB*_,&D+xcK&+HHr.p_lC)rBaJGGX1GLiJ!0yxbAk,~4EY%Z=Zf,[kVZ>r!hE^<LO[9pAOu<US|LRn8Zuu>?h1&!q6?PfW
^P(k%,?8^bS3Qy)Tr$YAWb8!6Sti:7Hy:|KX[u/V1pv&5<qW&x$HwJ)o~u.M41>el>~?P7o|,?dRfKt_t!.AUUl$ZMI(]>gkB(<
<pJ~ib8xx|O^PUVzT6Ygfo6UhY%?]XF7ZDZ&~VHPqot()TGpSB*s6B?,2H;d|wmE9Sx,VnF8H~JQe[MO<vb!oFPj1U*3E9rkNza
B;+[L_jB&IY:NzLeH*o+z&q;0^C;Hl$g2DIjYO%<Yt4QnW.MbUP>>K!t(a1BC2=*Mx9f0|.1;MV:e?%K>ATxbEEs[/]fs4[Y,I=
[&PlX+Kb[~W[:GaaJu>DeMW*<4JhJC=BpikN*>S5O1T](dhFUvX(YKNHEGOy=yET88,et:Gswa!5C7Q$pM[;hQJ7ybwUOg9jqU;
X|MSpjIqrXrNH/h0/(*d[,OX+vxo384qs<_LzcrFNrh1c.,PCARm|v0PaRgz=x%EkPnfS!iEPqh_O^UW<!/IJyqPY[sbZ6]9~9h
U,r&iY69(!ZpYApZ)XPy~2I4h;mx&w0IC=^uy.z7t4+i5*Go6i~MpJ|!1XZd?d%O?~tpt1K<BBD:0mI*7W*j4BXNB/?t.O4%$Dk
KEW<PKt!%rW0$p|C=%dDnBIw|39NvG_%WFX8Y0O.M12w~hPDE$IwG2>hsIA~H%3TG&aSI$R/coeGAF5Lj,.WIXjELbU0pYrTgnD
EX&X<nm+HwV2wkpWHbl]gPo&&l6]yxpCNaN3Jhh$9f<D,oh/eY])m8GAA<zvLWW_ko;hv:.O>s_?Q4t[v%4G=XH2Ab2/d7:/[4u
%!*GbmVzzP[E1;HU!k;xO,cRH;AnW=Y6LN*Tv),&/P?$Iw>68CP0f9n(?aT<l:>W[HhnJB[>HK$rh;>4*+v/YG=d3DPxI=oQ2K1
sx!?B!dp;Mc&*i$F(m|5bG|b4my0)O*(<Sl^7pO4Ai[6,p*QQ]ZF:b844>|K%!)G[k)1/J78HNl<H>r240/=S_jt<WLOS.Q~!6t
pHA6ei+JSc(&F;kp=q%7|+|S_K3a%?Jd5JG,b3L70uEb<~ua=RDlRM0rV_1oEG6d]nrC^oy2hrFCaH1Y,vjH=!<4APEiZ?=wxy3
I>zoCb%leBw9hx!wTB)Vdu5f2t|i(*2_OLA6O?|P!pM&;P|bZC<BAotVF2N..%OY6MZWcUJnQlUvG,&VMcDOG,F33~tj~v!tmvw
KX/*?_W|4a|vnYqVK2cVJCJq0>7elb^DQI>|m*bN5pH&,=VHmHDg_t|0QMplDcMDs6VtpDZ:2s;,$QKSpj|3AXU:1aVT7!ci4PB
b;F7vHS31=RdZM1$xH(8;w$fF4?fCZXa4$P9nN?d_At0Pq8z~wMt^^+EujJXpyqbh_).*!$*Zc.]qZqKJ<f)rkj1|CDr!taqn+S
nhjH^GE|6m0iM%T;qe%QYqpq5|;_:N:SW;rp09nPYqh8&G0FQ*9mYE&*kcU(|Q+x]Ll8O^dcP4oA+<Uzcm.r*]h6=6V]Yp+k>c|
7VtBxLt>jVC;BW7%%e7Xcm|tK!Ns$:MG0INQj:snHyyveLzmlB+!5)~2!wo~KdQfB1Y%1&]otYKB2|Rkl|MQnQMuw0^H[1U5Ff%
7R0o~_R+UphS0AQ.CknYA+?Xx0vJccVl(VIVdIH?%i?fQ^F:a|0aDBrX(e52zZ/9.)d|$pa(elKQ3w+Tq*iIN<Pv<2*(CRm|dUs
C+&N!I/]PG(GYF$C|f?>dpI;u1SY2%KA%xae94O$.1n%xE[%P/mUQqV|c0yox9flCT8we[f!xm)$i?p!&BKtzTCg6Z4(jul8:Z0
;)*[XDfin(sasN?AC8O~Mk8Z|*Yn0kp3Z;>X6rj^$&+rKOpWba1:h5StdQ~%fVW8(BAn>GWe15060qII^0F&QxCgpKsuB6CC|aQ
FIGRMvr5379.Nms*CGY++K4pN:S8~N_zWn.zh0TGX2;j:Z.<5oRoH,Fv)B?t^^8YmHlP.0:*MDYek,Ki&&];M%K;aUB8p<<wBnp
.T&RZ)K=<9U]rZpl=sP|ozAdR5K5$9T:;.=Q0zx;XQQwK_eNJNtLK76RVZex6^&vQ=8/HpQ&wVKYdKT~wq)Q88buCB7sxg]iPx(
O7JYHqbCL(Fj1zD!I1)JvVPnK!oiYrWIhZjNmw4]>e7mC+dbv&WE$^IShWHjZ&19eCDKOM;pabMOR45?moKWE;K+y?%]j:kRvWZ
]q:Q4&i;c!cAJYq1/CAui<<F+$YyUoG,CZLMD,B).!d:Jg0i0Y9[r7mo0akp|TV6s;)dwPTuxGU,zG=c2EO?Ul^u:AXJG+cQ=g9
BNCgO*C,_M)g[LgSU8Fv(xUi%N1x1O1!Fd(,lUwHH)~1V;^i<w[6Fgt/<:hShceKy_?f?hyw7m+]_)QftXPgkJYw/0jpmnk/U(j
$NhU76%vRc]c%4meQqOCCaN$|ewm$2;EKNuj7H]]2!)[]+fu~POaqTxXr=w&ikhKQX83m)9s[J$kWT./(E&qSbo]fMGS9[NY|:x
J(9%3s:)iDRZO0$H(Y>Z;(4>K/]NC)PW4>t+j+1m[oQLWdLf5HhPCMnMt9,G4aQQ[:njPVtKnX.5HAV>p%vN]&=SkZ7e/GdKst~
Tz=E77w$c70vK7BB23jj+de[v(eBSyQ|?>+PkGtVT=W7L3(pWo2^:!s)Wj_NvF,,wjk2j:+y01fY?V+oTkm,AbAL!_lD=[PIozk
CbhQ^8w*Z:mUGNETM^VI%0L[FbpUa|f^J1Q_taP=I8R$!w6h:&i[gtkTf0p^Ex%U5EEYuN[zc/LqHFr&(?ZTN$%]/EcO2)AdEHc
>G|N/j!Pz6wGM5&9w]Nw<gMYe<5WAzn+VeLxEgy0EY(4hFqpB.Aq4qvvA([bzHjtq~jIZ]q$XpI[G/GNZU4bGUq)!*RMImx*(*y
Uc~trII>1bvt;n;cNrv$P_%yf<+Q6HY>tBhtIYRL+rZ9L9<YyBB,D5eeW(*5*,F9fWKq_(][jwTCOx&ur2]?W&1t?id,XbuY6,h
X/g8^!99vBU=PgcuA<H~m^PTIT_OWLYvVlS+?(lBN>/!l<]RZ.u:iC+aBXQ,,=hI?Q%sy,YZKi5?zs&D1RVuH1omK?mp67w_$8F
*W]ZveKa%QdqtcQ_%$cZ|XR[Q.]n[hh8s3Nk9i*iKA9pYR(kJ1Tw6&aQe$|poZvtpqIr6WWq&Pm?+CD[TKhiNS7tw/mYWVq+)wq
m3.o2H)BbImSd$)_,O27CYF[~g[=xy:>.c(w43GG;^(Ce;A:/e9/kpue9F;Qr$[7sfV92%eK_yaDaw~)j|P,SHJf2prni$Y5|Pa
$08L^LAqN~zm?H+kRyd=[nC|N5%|hzmSv*BZ+9TftMjj$4qF41dZp$Ydm[_qisQq?aGIJ$u^Mts|vw5sXwJxtW4<!;Cph&/nMX%
qn1Wfy~ia~hD*U2L9SM>BOykG8JZ$PF9V06*o!:$D[Epw4M)Q,P7u/[PDxDjdTD;.o0)ta[TDH?.6WvWsLJbLXx&[.I*sollI&p
|5*jDqS]6z.XzSEZifW0r;]v5E:!;=tlt2yD<5vE(w:Z|4(6hQ~_3?ry.fhSnFpv_;1P,m?(j=T5&jVtwxj63e$5CU25b%Aifm+
WOqRWc_?3dccN_)iYX=6G:ROewk4;/Ko?9DD=_*WS%:QXAQQ!w_oKShFc,yMK?4Ij32Jn3Ew;Sl)=V_83Aq]tt72OA%;Z*R(q&W
3:+1.~!W8d3_P?;wCk^/++qy/?1y*Yonju7/zE4V9r2f.$K%U<)E=99in?j7<|GrI|Xj?yR,X/3h.3MARo9=qI:6hD/r0DL?Lgl
zCgkA;Rr(Q|mz+4[wfq+w8P(]Jwml%Yv[wdq]g+jsKx3I%3VMR^fXjXx=FfQ:D8oWL[KEOlgHQI8D)ho&L5hqNd(vUh<nop6;kJ
S>7k]P3LL|Tn4oD,8?6Kc6)%fbwT]TEsX0qb|XF6|z?G*U;b,ST.lMh?R(2wo(s?A0+(=WDfsk2.9q:ji?h;VnUOkwo%e$Vw9qh
bJQEMP9E8FW2vfXOqO,y(P0SUHU+e19VqSOBJD!/BHidg2$wq2y;J]k1q6Zg:H+ZcP7XtUZUisY[FhNJ%ar*)b9:v?tb>ylSKYw
3?(O~^*DnB?T~2+/Le8$S;<<[pb$Wm0Ju0KgEZ^;I9Ar2PQg>,h*i1LidWdq_^_6tyGd8FgR<PafUrh;xf6Ze*W6%Q_y~G:3jc%
&=y;jr~E/GHmI;2Ef1wzuM7S*qKb4u[>%dJ7!_:2Meh04JU&Ub1*ioz2;>VMs_k3UDPl]_nqE_eTRdBfMGTGy|%]_aN|wamiF>~
d3F3i[EU/eP;&JvxlEP5s*lG*pq&F;Y7B5*TXNLnE>mm/C%uZa.KFrb<;nR)Po*[[9SEB*=/hh!~8])YqT6w3=zzFkBB)Kx5]~M
zQv03_D%+C6>fU|2;zW>Eame^<sf>Y^H?^FjOuMeSI3>jWA248;DM2BIT!U)Ff8m;+A*Hmn5uo+9/9O8751mh0Hgh_E_8n=6Rox
g,;z>[f8:kfzaPA~nII%yY_P2%M9NaC.:RmJB:e|?^y77VMYia=rbhfSucXYEi%X:VnSA74wqJl5A0VVN8r=%A[+p0AFNa7khW7
*RVK[B*:VA]x)tI:vb[h07l+7X,VV5Q:/!gdhj/MG1R<A!hl10qjOJ^Bqd;iq)Ry/5!OvG8a9FlISV$>O*<FaPo$5gp,9eA_2HF
J(EG&U|0bpF3(hyC;7lIo8D6VBzlwQo^ajrbR6!,qSu>PBkb,:2Wp>q8ps2&o+B%5%>9:dov)VVf_dY4t_K)wAJIZ3uG=5(JI)&
nTKKq,+/RLACEDrgqe?]5|;V9y.>x3PG,GAh66ag1!M,(wz8(J!d.G1;rya^n6[tI2)NUqDz]ToP~nRZ;EvL8Tfc8K8Adq8okcx
8x[D:MFsCFr)!/1D^P+*y)_)bB:/HCI2Tc[](q^5HfjLCX;brCk0nkdp*WTX;+?;!$hbHIKFqLf%QtRIQ=HO_~V94*|XP:DJ5T_
,AXP$xyZGW?7PoHw>.WAMY>P0pYPpVo/j;D)M_YLBmb]X(f,JU:57pe)Qh49M5:GiHE&AOvkT!pX](=c%1$7]9++(C.*&s2mqQO
1)0$$6:1_m]D%64=*r5|d7U66)GP%f.?5;_dnF/K~J6V3MM65gutv!L;*.sX%0lDWt5V>9jQ,1GXtg4eiDt&tBAkx&kyOjK?mg^
iF_uv!L4og*rQw,~0n6q$PsRn3NE5c[c.w.V.2^*1H3!~_AQD44k6UvVpv7h)Vpi>IR;R?msznu)j/!/*om_M4z+4YBGlU1TFk^
M]cpK9(Ayni$(:lcHa3)9+E?Cgs*;l;C31wJrfe:*Cu^KzrGmD7*IrqNNv==HQK/ixhWf+kNzm^l*3CfUH)ejIB$wh/aN2%?e)X
%&_SS$>PByqB_z;cO*a:bVYUo_Wkw:KL0ap216b1kPe~2du|hps2<dVtd3ySW_]P?!5tu;]t0SAahi>RJxj4b93eI++SW1V!=z*
fb<(rVRy%bpj_FBapbaE,g:Bk+ul8]hbR,4egwqTZX[c64HAp%^?r]TWl><eo,R<R_(&RO8v~!8xGON|+6[IL/.wzi_asltO&Jt
&qSSizpna5]%GNigx(j1XY3GcN)pzo7yT?Hl~h]Jcb%mN^B;!NYB8Bjk9hWO[yLJ9PEFQ>e8WXJD8;6Gz,dXVSl:8lA;4<WxME;
00_]bh0P(fCIjVIPHvLM9qbf=~J):..Nq96u(<ZN]Yqsg1UIM5GCMJ^8DJ)>7xccMV>>wgb+7656!aw~evgS.ax+ZMn2YQ=<Uo_
SXGqoI+dgSjw0^$47_y^7jQj!9GK+s=NKh+B(F72*(;yc+Ds)Ja^:,gdsudW4;O&PiH?W>Gp(d!uT5cF[;~$?!fg$dq0sZ/J]:G
$WM/hHXf)iI_ymV?f;uw7ZCa)BjS!,_!xkVSVbc%)Z.VOQ7F~[k5J*MxSC!6As4XB?A_hPo|V^ft,eKpYG(GXHA1AN1b78B*,Aa
FU4O=z?hrO*9wIaC0+Sb+YD|Nx~3&Y!pWl,49FY2HL/hb69>hceR=rP|w4Z%9%4;BS^,w~1C2B$Cb~|!hc!af.2.O<jfw.nb<K)
!n:DW6PbB4ArvO%TcChHnM?$,pcBYZo?iDEkh6=U/U>tH6$oF^Ft9N=mBkbv^=.[8uaO^BVUz_7/uglXsOEkB^?(%jN6*XrORA,
~9B)Fw78kSTio9Jm%Wl3i?1qiJm4!BZD,R9)F7]x|6s%fi5$jk*=)uKL~[&^!.XKyxJ<b2Za=o.OD%+N<l%x/N~CF59:Os1wldN
BC4m/uTOAajN(91?XB=osjjxk>f3GI,;YzFN+dQ86k9gL!/)]A=Qc7bHv5hJUehKa^C2|f:p.bF5$8SBH<_op*vvRjV[pFIo(XX
dNy0ADJoCD$lTg!mFtO0^C9F*CeR]HAVu7kQ*TQ>KY&K7II1~430p?L4YPTGiq=AS3~l;fUcPT4SgauUdRJPI%%h2R<L95a1KM!
AI3(^wV+rDV!0l4uktpH2hP1XQS_twPanYo$+ag%CDp)/DfoCjb^_cW+0ErDQT,Dpys3I[WWpr$dnb29b(Xu=qZ.A|DTK^DySz9
QGv:x?eW]LQ*?fhxna1beb)%WC+q%AMx|nfUd%4+F[Zf^*Y*k![M.*L>yG.5;~d<9,b4(Xtsl)6(hZSseivv+?9.1^DwxviTw4J
4(2<|NQqNQDE0Y]6LTK_RttzLF78ok/ZS](i&PfM&FPvf,kju11?PQwWRWnb%k.*U3Vh2gy;3^~zyUWx~]Wm6i3*MA*bBRq_s*o
Hg=v[(NL*J^cDU2V;4!&*,%;d?]j^bdh+ktU1GmE9E(QnVp9<uQI=e(Lwf!AC81!%TRGT/~ZFqM./4Adz_ydH_U5*4V=$<bre*F
~48YeCB;_IIDQL4UbS4moW[Dn;:o4c/4n87*XyI:eMS_2$^Los/f3ofGX?)c<AF8~_1lP*]$DB+=r>+qw8i;:/3/&~MX&6q$yIe
(h1KXqOr:]Sxu[dRLme1u*[g&bh~+%al%~AJ8|9,NA2/_]xCG*T20wFtC+W7,,m%H^gNaGu[EBZ,8IE0)/<gF%qWWU3IZ|v[y>m
mm7=*sAnL[bi1;1gRzom!jgVfuXt+l:KwSyxZ5.+bLi]5.6Ke;4:3Xp1KcS[Q%UJBq$)8,|Lah]sw.m_8i]_].3iCqj7Q*N3Y%p
US_%Y%pBE^E$V5(:_5]5;[(YKN|aI=gF^6H%XWX;I9n5U=+50KTX^=^qflF~?k^FZMplBLAU+waSDITGr0<Pmo>(c3h9cu3m=VU
JVs:xRrtP[=Q^L4V3%Tp?At+?+aaYdDHwOiQ6TYFMBxE*0Rsa7xbe$jk&e=HENAiI4OxslScVh,*fO=oQJ0_)%E]y39bc?%O8R!
cB00]Qju+!LFq[:jiSXwOsw!ufd[iXIIgQaf.>C;e)edkMaoVmnlDd[=^fT:fq~$tygupP:%9xN)OcwgGw%o<owDT7X_A=v&WZZ
V7Py!hAK;p_y/p:I[mrih,LGTqrGL(Z?XeLo):7MrqA!T1/DknxaKjjleA0OOlW[X>4JH*LJij^Hr6FS28SmwX1v|[=g:65?lt(
qc+2&>pP_Q(w1tvP=~(t*$N*ei6.1w^C~WZZ4=g>+WHrM;>.b7]m5Di.Ryu.7dFW)%eITvY<?X.8ef3_VQ)zFrY*r8(R~gvD1p|
?;_6L<(:z+=pROoEX>bi378;?.:qOPxmXfljkOI+N81MfZ+a(Vk63v9F2GMM!Ia:fWZU]+sf>Z$QU_!%yr.rgPNOZf9[DeAX&/r
(q$wz^&1<JW6<9%E^*$JN5]ps[D<D|4Qn&a_wL0I~=[+C?Ho|kleYxZOfrBi?%$B&wtNt,5bc4.quV5mBen3rKo[6VO?G?JNvl1
iL:g0s?^[+=2>yTERNMVN1VY5<0sjd=05yJwEvJ.M1C[6[rmKr*[5oiJuC1k>Ovu+r1Q4I_+_E!2hntdu[T]m.Zku(n<j|_Tkht
f5R>[YQTFs<]pH<u,plt<<X~o3x7w2|?9_5%/u8*KWWKbrkJCst:0B$~[d?4aH<E0~%1fEne:x+DvZL89fe%%.3!di7EmML[^^4
4$LM/J%2_38r2.K$oRCw!%jDgoB=HEH>Z:hL.<1j&:N^3.w!u/U%bQU6bFjbWAGFkaMmC(aSQ+WK2jublqDo)GyBvNX/Laej;g!
aWEq:(KRRou3Pv,zWt;&ycU*iw$oZL30Lgu;k)Hcay~iUx[]K1b|T)5nmS|QU*<MmH(z%jT/zJJVg=3_XxBf&;ywi.g$9?cUTz,
ppA$~=1G*b9DClTFP:TRAO;8V?4=nPk^gK$BwEk:Rq1W25F4xhUfSVWRR+chAAQ7[d.5+mfP|x6i5_J!7x^b3hP1P<U?iZiryyY
|rN%cencSJ6:^pEXmq9Qa[K!BYOvo]11iey=Ynz.YTK/fjb:osc)b?&K>!6SAemS)MKSzqcuu+hjq5~VmRb6=zz?UIVbS;J(ST=
F6PeuXCpvV<Jfak=G3zCtl5CHiT9t^m]%B6:)r;M_Z&!Iek*Bm4]cRXRmVgT>WjPZnPPIAmRh9Gqs5Msua<+.yOvwsRXQM,)vq<
X5W$v1g0kj:.UlwoJI1W_D<W6XV.XO5CbLh<1%xmLX2CHV~(0mu=dV25Gof9e7=dvQPC&XCMlnhpYH,KRVx7(wf$^1jw942F>Vk
oAsHJu~i7<6^<^ksVkTvM|jC%xe;fROer;qagzi^ZG=tIG?2LDu$QM([,n%.:srzM$JjAv2n2(a9hqAq7<7$m3OtfT?7DJ+Mo+c
r&WW!6Itp)7T?DErDB=1h6Yh3=:|cy,XU9Jm:I4N8t&EAnFD8h3H?*4n&:k<+MXvAiq8J1Jo~6a%xl&R8$f:aw7xdR4z^+iYo$%
VaA_m)A/[Dg9?73wi4i=jp::2rNbel+4k$2Nvr!835%eqmC_c^~tOi|&H&.Xem+U:ZfiY|ZaprGfI0r&!j),hju+ri&as|6j*Jg
G1uoXTE9~c>ANl!aQ*[y(mO)GQM,UA[eU~jh3jVw],=Oy[8faso(|caxSEd_FA:aQ.?hp&8*E0PyllZB^jl$!(wxR|LQYb/|_Cd
i::S:.:<KBlh|b*~T$CRFXX.+_<7(+H!:iL/I~/JIu_CZYym~aa5SD:Zw(j<h|(oW,nqXX9I1=XdgZk2vCg8%/5<]2<DyPmhNVc
pu$e$RWI^3[,mHM[BEph*]zoba4D)+MUT=XkcV!i65nSPOd_o+Im//]5X]9iLl;oWS>;VQmLAKoaB7JW=&9,DE7cS/d<)kJpl^x
c_3OiWSb;RHM>F^2cr)F6MT1[F+%w+WJT42Uw+FH;sPf7E]:*GxgCCgAr|0))v$Gi)WtaMAQBGZp%;/x;p8I8W2~+9_!5Ny)(Ro
V1mZG(MCn=]nG48&xlMF3i=|TUT5QQ(MF2/*W/b2<XDRDA8fh=uNRM[/Cd:b[MG57>UIV,c~l(&&$[[%35N?OWIA2bU_d)&t%rY
.<Xiz1<F.?om8e9wm0ZH8$9!8c>Da6cp2)mj?ML%%f3Y<&cXoUjh*$Rs%8|llFQ,QdEk)QVmvLR:qPo7=B|ga7|2pb%&JY+;[!,
M(=OJMfMnZA:~(tJg%4I3Fk~UM(SFlA%DXyk^A~JC9R26DZ>_&xd&yQ4[tdq.9.8,yz8jqz<6(uS0L6$WOIefH68HME,/CQw:c^
&a<Pa$5DZ!LL8,V%&gk4mfg7%38Lw=Ml=|E5>&&4J(hx|y?/g$>qgzZRy~wsqoF8i+,ifxUc6LfeW>U0c~_lG!bXKCdE(oveqG8
/8[r*TMnf9(NcS7S72uA~:NtJKu<&64Z.8&~QBl(,U|+ERoV]>J!VaroSI.|oRnta?~cEUtT_a)dAiBCc+)woEPjw%Oo&pv/z|F
34[U%c<~VFBCe.[=|qmY7_.CXRRSUTOH^y)_(SGWl7/.kRcfR1wjLBN_h0i_~H,7:U%j]YHJR%4>MKbFrmix7QAj,=pB1Bk1|!x
|&r$5^H0/|UQ4kUP>S>NBHx>qSe[qWo/P*J&Hk/x36XqajE1IwKXF;Ex)9wy&GoZDWu&gsB]akugB/9!r;.D(S6n7.|YbGp%:Kn
y(UtuCTE]uzW6$xR6cE/Kty1;jc7A7G+mxK&r%k2rL0sK&3[i~EMRyY,IudqT$q(5o6_B|9)k85ygy]&0z<s3w0h>?^0"

def inEntry (c : Char) : Bool :=
  c.isAlphanum || c == '.'

/-- What counts for the next character of the tables: the number at hand, alone, with the second
before it and with the start of the entry before, and where it stands in its entry. -/
def outlook (recent : List Char) : Packed.Outlook :=
  let numbers := splitAt '.' ((recent.take 40).map fun c => if c.isAlphanum then c else '.')
  let number := numbers.headD []
  let entry := recent.takeWhile inEntry
  let before := (recent.drop (entry.length + 1)).takeWhile inEntry
  let place := [Char.ofNat number.length, Char.ofNat (min 3 (entry.count '.'))]
  ⟨[number, number ++ '.' :: numbers.getD 2 [], place,
      recent.take 1 ++ ((numbers.getD 3 []).reverse.drop number.length).take 2,
      number ++ '.' :: before.reverse.take 5],
    [number, place], number.length * 4 + min 3 (entry.count '.')⟩

def format : Packed.Format Unit where
  alphabet := "0123456789abcdef. \n".toList
  start := ()
  step _ _ := ()
  outlook _ := outlook

/-- The tables. Five are for the composed form: characters that stand for one other each, as the
first and the last of a row and what the first stands for; single characters that stand for one
other, as the first of some neighbours and what each stands for; characters that two others make
together, as the first of some neighbours and the two for each; the other characters that stand for
several, each with those; rows of marks and the class that orders them. Four are for letter case and
two for identifiers. -/
def all : Thunk (List (List (List Nat))) :=
  .mk fun _ => (splitAt '\n' (Packed.unpack format 41187 packed)).map (entriesFrom [] 0)

def entries (i : Nat) : List (List Nat) :=
  all.get.getD i []

end CodeAtlas.Text.Table

/-!
# Names of characters: the table

The table of names that `Text.CharacterName` describes, packed.
-/

namespace CodeAtlas.Text.CharacterName

def packedTable : String :=
  "
V~9enoV5,9[Yri^+2U[zzMqX3]=Jlg=c+mA/v4W!_hB(j>Dm(GzU]?h~nB*?V93xMA8W^mvu<jzpV^:Ij5PO6DYUIth9JQ6mHaz
(hb5sj%^_xzDX%x8m]!f4cD_nX3R)[+Ef<zdfHYZ:1pRIH:0uHYI+Up8YF0&2YczIbLn>31?,A5=7tpTD2GN]MWIUFZ^*zUu9][
Xw&)03>>cz~H^&ZTo]7,*R5x>b5tQ2/RZMIo7i>XB*]A&y2W%RAsXd&k]FZB:xHg+D/S0cGrnMcdcpK?G]=c;:?WrU$r,B9,SAy
Q!1?de:?d,&Z:LU!xhugyAL;GiXO;8m:Gm6$NR~EFU.NR7C)HPc[_YM?mGvb5/uEJG$|~UlZrDHsLsruYr<jRGiFf;vJsz9zzjp
[k(im:x1DL3l6gooiYuvhU/$cuw$~bd*q&?vqFscV2Fn1/s+XJxX*S%y9m?Y4,AFquW,G)YR~kD~Ro?kuaK%M*2h=7>v+wN1PKt
Uc2Z1k=V1p>pK&Qwoukqu_:[,_~I5(7I2Qck0[sL_N10d;4+H*PmH>mZ7$7DMv68Bz![O|X&fpnyT7&2GdGw/S(;TPUi0G;Z<ko
t(q?Oga]aEcYT14lte>zeb>sp!=6(|G5iGWoOOJo|&&gYHs0S]_k^ep9URv5PHtWDN;6_?M/H85p&3Pt]7rL>x>FBK8/PoouVn~
S:|u(oFHju4CcyBT^9c5&3~^?>VyyMJ5yu(~5pURx^~j52f.fJPZm2P3&?yv4(zz8za_5i<fDz3%WoSISsS&diL|?ePGgY.=C,v
.U6l2DfBg9D[0kz9ilFrnZ<7FE3:>S++)okuGl)G2Hibe0;|W]%(d:M_Uu0PV+05tlt/vfm%Qyz%~.4dK1r:~6uUeu9lK,nyZe.
WRx$JH16+h5QhJEo%N1Nh%$eN)5:Zb6zmi>otjHzihtg;DTtN*[KeOnjJ|C0KKj!,+DJiY/J[3k?W3UCN$CuQw!ujvhi65a:mPQ
x,;]HY|4<<LQ2,*2WEI[r~lH1VQPv,mYW59~~.KJvQOunVY3]C,/=unf2l9Y9k0[Us5yeab<AxJ5<HTry8ARDiktHAVU0Pech<D
>J1..7S?Mx(:IhKS/C(jX4Zgn8:X/2T34O9Uz2Dh~)Z~kFaY|CE?6HpSh?(t6YkcfNX7tG1xr~ep4MNb&x8p+,Y_z>CJ[>^_N1k
)7.qcWU=DrCzET)v&[:|]3S_XJsv/t6%+xtT1am6XUGUvi)lF&e+A:sUs1(bf^qKpsvnxO%k*78c!rUeeg=oCk(Q=zzrztqM=8l
i6&C[Y_AYVCj$Qlmfd*P$G1IJAy/qV0O)AVLcLth3z=.~o!oe4.yf=Zu~K774+JCpN_1|M^aMVfKyy$GU|vpARIi>5(plc5F&6~
lu;m2VjnAM84,pDlC:wMP=n=zxh;r>UD(zR(+L8~oYs+jn~(*p_Xpv/mF29DU8d[EZgRvamVDoLfq2Y=JCaGAN<>.Lc7Bxn/$E/
KDqAAgL|YZ?>6XH<bVV_e9sNvo]2oX;>HgM[h^Z1b_S[?6;z))V||w[EW,rZpg*n|NA4~G&SC9u9LD9T/vCl:ytqb2hHfrFMYVK
;4BW|PsUjk&)3Dbq|KkPXGggU;4Ha%ERtnX)ihg[Bz&Yke0FJEy6Kd_S$v!^PkZ5D:ZcxrkgrkgHaTIIx&e0!_9gSn$tbBJQ8!5
CpbGMf6FqYw.xA<w9>5!rVnpLR.9vvT]D,Cu0LS>kq]G;?ImSX&Z4OK[[DOlp[lDUZ[/Br&OrTv=d[BlVfUU78n0^K_B08:PC?K
u<(e4rw^]:G$]Ziek!ZJH]Kd;^XFwT>jebH3i&J*xdkffUzko|[;^[L:Wz,R%zH:1t:*gaXL;k?8HRj~=IWAm<J~:F1OR$K=iC.
NaZfRILu|TZ^om7dtd;|/0]CBbR0P7*cKnVKihmhzE|,KP3oOfEkv|7l,c&bUmJdGyya[9jynlSaJE(i).e$pT?0Nd?3jd5Z8;&
BJCN7K!%rc?/Lh[rGPlV$Ep/Z0DhDjlU[UO&R9y.0gnuAn5xmX0l(HIYcO~2>%8]Cz;tBBW5XGEF3IRhCh1_em?$s&1g;plF4]g
R0ql?zf|I?>ma1wjcm4efR>^[kPS$)mh]qev_$o1SxNNLOuV)~k>:?Jd3Y~K%$8+j;>MR&lyi/+XM&c?By7y7O(RM[]D*pE2LnM
wpDBWaayGHi?5w(2SwyP]lhQtvo[zE28%zv|>3z$5p(&p)6B2H?JnRUWx]Ei9mkpTGL$j1rqK(mE9K.db4(Cxt|hzrzKUTcCxaG
yuoi57?q+%/Y&c)2>/lW$]27r)OKkty3|CDQAO(VbjG)70ZokK;36qr;ca?l~gY=rM$VI2&?|j560.LZK0RH(w3yI:$tB;|2yuQ
C9Qk?0%C~3wGtrBrqxPC[l<YRb*a)&q3nRj_2u:cN;V3c*>wBW_!a&G5Ju*wTTA)L1oQpjV:C|U?|B;72zpgB[08Tg/laeq99/V
+7Px1(EGhe,Ljs7&:l0TqC2WTW:wZ(]<LQNX9ac?S3d.KVt?/!%iu<>xbBL%Q.wD%ooKUu$K?^P.X09%eUbULB;N<ZW*FFNBjWU
|BkeWpjD~<FKg/rY%nxdp7;,UC9)x2gN!_7Mg3]D6/$~)0x!!Yp%x8WvdenoMJUuJs%%DY/F,Xc!UPKmdaB2CfD%q=/pcqb:9|d
I~/(YNvl=.pjnz]]u2rwCl;$lt>u~tvnU/FG9.39Z~W4el+yk5f?>qxQ|YoL|PlQACEokzq.oE<Ex!^Gbkk?a!N_*zaWzhH[ows
rE(Ie;16=V|^e.7Rfj780h~UuwgjFp?UI++N;)Kn64r7BHb/hl:f.Us|;7&<L:Wof?C2)zZ]~Z!2vsNB_(v!(Us!,O2K.VB?jo[
?h.:B4XL_ZVP1omo[OXc6JBoLjz*iRMPtO?YgxP3$dgMM.W](n3tf_FV>~.SdmzQO*5i>X<B_~hit/%/y.F|=YA|=)(]6%x&Z%5
6T|QyUo5x1Ny$/,_8<thPY=zDRydu3Ao+HE9TcITlg.PL1?=N]<.j^RQhi1a_hStzE|B]+]<.u;ZU;+S)NJ||x6vmHOr,xZ?)AH
tbn$)3t(R1n~f[By621wGTxBB=x>.uEgJRuuUU$)Q5XN%s>3&3im(3yB8956|1X1|pDk_1>]U/o$QvhK6&7a*I|*xr8cuWhH+4o
<$:IkHwK*SYLh)Kwvy[0/~[(FN3[4y(TUqT9v,u5EAwApzc+yPZDrGtSl!==/YYx4XUR2EyyU:N~OgDR4:zOKnG(0xxT>mlS/Qy
we1RM.5f6&<^z5kuaKR_&|.WN7f!iuowZ5,?sj.yj?iO$0:S/BYqmNSwtK70gzdwU+NkZ%8!bYE5PgevK1K4|ZxdySQ^>ac</t>
K^JWW2kbjv$4l6KG2:pf5WNpzPNiP5ps_C]f_T=5egJp|vRQ?A/Kr&+&9/h.%_?^S&/SXIWrbR|ntwvB3ZjWiFe*8!r3tUe)>qq
J1ikTV4*6t*=x6lB:Qct[Hav^[,r5IC.&yE1;xE_Ay:()Pdq[9diMchv73j(GV5/V6eQ25Vc8WvLk$2(tY^(<2p%G4O^wwQdyX2
Ct~0:%,gM^$fAvLZ^1oiF5ZmsZhaWgOm^ux&*OeR&$VEf9;2+0KHHNQA$Mg*4/Ms9+ZpRJKqjy3tQVIwvfUvQt1q%?X!pe5,?%E
v>%J)|skc7djL!LYgtl)g;:AL~G%u;(dYc8q?$r?$UInZ(9?A3tMEr<Md83*pM$4dVj>]/gaNj0g~T/_0i<P]pGXn;Q)!Nf*AC>
JkXpF|(LBR<u,+abWifK.W!k&mU%][(QblmB74=2JBu=~~SZKv:_(1G~ld%G_y(/vCT04P)=P!9=zW&k%:Q&haOK]~OS__<<tR,
vf:Z=ad|4T[]2O4ob8S4LL]3C%fOcK.pb1^F>SbX,KK(jCV~Q]8o?uh<x7tiiExFW/4c7RHH$VW]:u6bXAx8a4&z]%e[:RW93I*
x|Y29]d$g^Gl]2$ic+Qp&N8sKOwWAkntRD0:ehVy$sEm&xHf/tyQqd&tx&v3Y+4><9!E8Z?.>hoRCW3h4Pd?L5|$l6KZNp,Upfd
1DF5j^w,g$r_$QKZ|_(O|,:c>>7(H=>,dN|R*HXjtiR.Mcfb3r[bj?>N?;C8:dLnOLG?:;/7b?%9j8g;&e4J)YM):|GAu>c%3NX
hYZv9UH7Pc~xjEK9yu^SJ7<w8K?]DuQp*~aHfJA(Y?d%siL^>$S]IJklK254z;k/|gCsVOtc1qerD&]2x.ajmUjt<Lk%9WS.w]:
y:oWxR0.V.pg)mo;iX8=71Fbw.Z(7?=HIGO_fe^tRj$CXH<7ijB5(Ov4Xt$isfqz4~/c=b[d_mQf]1b~StHkl=:<V:YrVa<aH39
S(t+zR/O9d]lc+L:Q&1]|AeL;:pXYZJMoV^.Hztk4Xn^)k~m;^|0bh10$;A|aO&3A[!CgNJ8q;4==WDS(JCh_ao<8Rj0r6=.g6%
:T7:?:=bZ)=R,l~Sh=9%FEnnt;XStmy:XH.&Gf+&=k|ehb5vi+g1cKE,%F&Cb84LP;h]Ac_|Wy|^LL~nRc%,ic_xP1F;4N4(hB$
$tgGo+hg>>]z_xZ)<Ou+aqc,K[=S5X4Q2ELb!&o/5KluT[/R(fe=/&u1kP~T+!k5>X4NaJSc/*vFV=+UeF5)!>g5!B+Nql^DP:~
NyMhiW=Xf>^:nEcq6YuS3D=q0.jQ7]aTW0R8+P*TxDg*8wckW^QFjbO.mxR(zvOS^+NAi<t^vF<c)QqAFW1tVC[/j9NK%_zj+Pa
M5O(fHgQ6^h3JFUK]Atme=T8jvYb,;L.4W~w^.3]L.O~deG(:6;=.FD|S9uC[/^mJKVyV[1077P[d1J9>y*aWb]y*n$esg$HMwe
&hf,zTN<a86[P2=W^QUXjv2h7jzin(t2wYz0&6v4=tv.YxsT<bv)R!Vu$;VOf:NY>td^4/8xQ:n6NXlEJQbg5d[$zDK&2]PH$P/
HMN~z<RSU%=rD0/XZp;DVfNT3^0]iS+[N~dI_390*>SFm6Gq4O1r)xiMlV?cy&%jKHj5c(ocJi$vz^,)H5^L8iK%d&16JYP+S|+
XUaTM<nqeX))%U(Mh$wV~]sE4*%A=01+ta(e3_+uT6lRLFyQcr,8+CGv?r1L<kjpKH=,UEoJ6zQSJNE[*FCow8~<J_FgbB~z|$M
?1Nr/+MXrwZoc+3|JY%,!ET:I_G7pVw3o%<l!1*NXA/LeD<%uV[xXKG.j8G]CE&Jotu<6E?Mi)hRP&gU]y8RjeJ?^><1;,,(S~q
xCayyBeFWli8U=*AUTvoZ~x.LgRujM)e(7JG(q<)OJ[dv*S^G82oP;&[2L1p<u?vQR(98ueehBl;~PD)<eE$mTIjfFzp/2a>tQQ
fidgp_1/FMAX|yDjU.7.VLt%3SFH^=|RAtmYo_,ff(Pm~!1bu9uAMxBb|wWj1SbOjvIwVk+aS+G%6!MI]_syZDhC)T%y%pmZmE+
_:y:AK*6wr2o^Pjf]s%HylU%m+&m$|fbrbWM8Y+l~!s<(r_~+x2!4vzf3F~WX&ahnp$|kukHwQr:Ghd^/l6P|c_aAr0Kz1:U.DB
f5hCvonbj0u.3|e5t~(mt|+svcU]SQdiXn7p[uwD~zGVT^Mb11WFWx8VjMih[1Kf*$;1g^^8ENX>TRAM7f8psc.$T|TRj|kPSxm
6guOD4KZL|8PZy5Rdqoy)Y&yr!iP>q,/b2=5>:;Km?10VNO0pIz%PM/wmB[AwqaafXvL2e7=|uG)7&&V?:$wCxoU77YWBNM:AZr
E<[JVcYt=GQPP[S:^Dl.V/59[6II^Z4(hv*R?+F9_cdSWYW~pSqCR$bL*?XxxHnNDV/1QU>D/o]Gp[w|7|6zX%(gq5f!ECT&xQF
>wNES2CGx2rORIUGC.SwgX>PF;_bQG:(/T%(J)A^q^d>iEV9??r63rk<R6Aa$$!q0u;b4nF1NGZ,NndFZg/>OEG_tWl_0d&G*1G
!6<h(%(Y=f5,A(RcOH_3rPK;P;DywRnAuIvNWJH0X;OQ9;WPKd&MoB%<uM]Gzpmp~uj%EA[PxthkI8>h69CWHI,TuZ:buUP)4Bt
_f1p^0O_e*EM=XwLcPirRM/dXISp5VPs5ag!SmlGOEa7g=UDk$9y.t!>>d&3aJ]%jm4F1z[+1SZ]&ptPccioWf||bS2~VP.V[Qd
|):8X:t3RjnBfZRjUJc1Yv)u5Kkj$ASehag+s<sLVeN!jrSoA)M^J][0[Ggff*W&W[AebWSu[JfX2,6kfT]GZ&3%wkoMeFyE]lR
idtb+OehIvYZy~*+7*bNIGU+9%%TG&fRQ3ISvrk/g5eX:=K%(rdto3oCgFtVHIc;_^r&Rr~E9YHb|%|zN^.Sh)]Lma]C05tGn_C
Z)7yw9dQkLPc=a:fscpCYPVn<<.*k9gs5G+o|5g)R[79afqa2fHXM(,fiMP/8&DQCu|SARZ)t|3G>ZqTQ)0|Pr_]dupf5g*ynIx
2=8)R0Y3$I%o8=h&/.Dis8d?/hd~r^DyH:S$u7(>F+)dzqbFwo5jM0*g60qRJ;Ev;J$eLDj+71HF/Zkp&B<g6!nEyf>r(:m(W&M
fB=pl|D8M/eRx|<AVaNB|Cp6>T|12eXgBsba;X.ZBMhc4|y()EpZvu:5_)!m)x;HhrW98xYi5qI7&V^k*03nFUH4=fjRg(GZo+b
>CG&9kK]9SU0m^eOfnBSgW:?[co0Po<IVpnrmY3Uujx2qw>eR;d&hBT&FIyExD]>v(]fR<vABHujn$2Yg?H9v;EF]$W[2y|e%se
V(KkRCXiTcfn%=V]AXP>3:o%L;$bXjVVFD7L65Q.%gazLcT++.6MRb$606mKfS$1J34|OCc3&w5e<SqHJiW,LoW0hJ>E%vC1f~6
Zt=JrNR(I608q9:HoV&U11V*BM2qN<jXlp4W;QWe>cA,ys:s=g^^U37XBual/(cl.KBym5<j;M,8<=4F<Oh6ieR+Y^]zz>FLq$^
Oo>8rzq.7K$I=c^|S!h9d/kEDO$fUOIS2Ld1GSK*;jQkR<pi1Y?W?w0>m3:VWic[M6f|]IZ<D4U+sw6QMm=(ehWQ.&9;Z,[FiWq
O:;++xF>w5^UlM5zcyqz7?kIi%j]o5OH:UP56zZLh>$D7*H]$W~CYkGd=C>r<$DMH^&y<J_^o)Rsk~oTWlkmo1+ng:<QSMCyNYm
W^3g?$rta/T&OOhTUHWWM)EiWIaA+Co4j>2Sb<4=Gpjn~C1|f6u08%8fDv<[qLuHn9k(UWy0(9(]U^4^DbTEhWj5AP^Po4fCQym
%JLum4_w[G$q39_[CdSRC3t1HEcgE~HTEw:A.uPG/fbG~(|(|5K2VHaoc75N>^K_UFR0a(,eh,h_R:0fK&!mF>r~_6xXX%mxq:/
lI^M^V:2Wls$CK5kbhOJJc5,vMx|(%BH:G[pQE*/^xyei:5pXJM=RW5BV[b9icZbhk,zU0gN.A_?S]A77I:G>0[.<rwnwWf*~<S
T:>Y?puuG,JBy0Ftm(ME0g<BYtMq!<zHV&ysLN;QAs|l?4:z+Aa)PzS|1yz*,JsaHqTIgWnC$|,CB1COBx;qcwyZUEgLS<fe2R4
9W|X._*hE2XnAbWWe9IN]7Dqek8y]4Kv;(qYuxK&9BH.+$n>>&+09On<nb$WAP6n:^J&nHC2iHSKrulBtSG%FiWJg:g+vr4Do+h
/q0nQh9;8nLqOO5l4^eeH]3MB|.iJOo9(%LBjweL(Z.^K3vhTzjdi8XSbpP.rZi,*coDNH6o3%GZ[u36v6^^&t4)**s$[t|r*]X
<e^Vdnna/f]i=0RrAkFb*_%[Cx>x(Lpn8sy1~+I(FDP<ztTM0Dwvy>MRObKC_:E/AmlZz[Y<YiGt5QXO?yNhF|AVSd)_FA)mdYz
g|!h~(:xWd]Yq6S1&O8u]P!OWa))ac~RVh0nCS=AYik6U9p)ar0%?9(0/8JqAo*7_:s[,1BpM,;,soRQ2uO2vJEz>z2^n5z*&Jb
orwkvJTQ%Kd<SW=$&))LDH,Ph:t>$CUKMXC9=HBR9C:J]DPL6Q]h3.|a!a>VyDZCHD>~s/,;ZYlM1t,:8^1oWIFWo/:NzNBo>JL
A!]~!j:qPr7y6pv197yCd+2h&Xz(ewjpgNMhEpVkus3MB,X4~x!;hMAA*aogBi>~M:P$OPCPpH>>G1p07BF.H_Poc%kMjTz0xY&
4(qjPelSGRMp%;:Y&0m_szo/T:Ea13gU_BHR$e+TEnAhO&nvF2eY:T)$lUIOnLm<FLA<*?:Jft*5MLp+XoM180l~wUAe(P!jr/=
uw?>uw7Lbe%aAi>VP~.0?G*[znq,M7fP8bi?FKSDTQDOR+7HY&S;j?~of[4t]+MV/Q7O&=f]=4^Ib3e6z4sP+C:Yp/oL06[o_,/
0omVEKWu78eH1?KtS[Z$A!GY(E)G>T*xi^rRP^9Zsn!:MT:v1m[c3(,+SN8(8Fg!=o7i9e?^wP*!8]WonE:SR!NW!!~DN+Ylk62
_cl3MA&~h1ag251p,^sl$HZOQUQ$>hfDXj+Do|98xZ8S6Rh8+nJ?t:q]^1fJ7uP;$p7Ale4E$CVFUEWTyPX87fa37A0zuvgY=GJ
Eb<!$r3*%dh0;^mWS~v;>4L^>*Z2=g89>g=FcHtn;r3m,necyjus8lSJh,301.AJ]Ft1G8/t4K4wXbF)pjAlwG6a,dj)dZ|Mu>J
lnEr&D0)Aq56>FbPG9tE?9gs2gQ3=zK$mYNlx]TYNgggX/0%*7Ds/;rqE9t]/i7Dx6nxu>rM[,GykZ+rIoII4T1E[~&|zQ4,EI>
2o|8DY=,WgF4TrdEm013Pys;,L.N^=DURyv*s:A&|;7hgjqX!DMq%;n7YZC/UMe7JN0*|+PKDgTKtk^g7Mo)e_YhdB1Vrx%f1Vm
Oqxaxf*R$+Pk=bxn_a7Pqp%Nzab)U.)1&M]k)uo]HK,LBj1O0e1jMd:,5o;IR>)a*+O~ZOSl/JE2h9v<(SJTYCi_tEPt:oPpC,;
?CHD~/>o__Puoz3BBm>4YVAx7ff;GTfWRj=hGq*x:lOqXLCp^C3Oyc8S+OoBn>PxF^U8QPF(PT1E(!yx^|)P3g5FvN$.id3wf5e
g1+6ZR:KLCZ,/Y6F>|$k<l~?A$FLXz&rj0[%0su6Bo_(;N:$K7%|]>5$~Wn4+3A!dfotGh5pE/zH8fbit1s/kIAa6ul&mhcq^+D
CZyeiM!D%6e_Swz%CI,.d5tvvQX+DQJT$I$!!Acl!G_^u5|%5daR1S&h|qvfUE:pTCltqby.u[>jQDaoaIpcf&zp.::XcjXjNv/
P*.wexacl=!+7%+u+8<nl$7&078;HgF?aiLrqFkcc105OAvp[THx<arSoL;%BNy^c>9,<aE3VI4H3B1j63/3NF(CY]$(EojEo+e
&yY[$hUP;&;rOiP%;.4=.Z<ki|JU/.^oK3xL0bW3j8N5(Hx%(MY^o&/E5~O.;(E4[KY~~]]lBaI%Cf|Sg8lhtRznVW</MEhD7F1
K3h!X+h:cE?e4V?(r).~ijlh;xRURx?]kQ80Jz!xVu>S]Xw_v;X%2pE::t/4<?RFD(^MRIYzFEBFF!YTZ,Y^~VX/zkn:|H+h>UM
yQ)MT(qJz8l*9Kk|kQJOmx;$^jGZh!h<XhXP^RAV>dm<OwOHhp7|h4!aI9OD3qE_s]l190<Cw.i^qF=i3s>1d6SZVqhd=f&3wRm
I]!Mr<1Iy::?;/_5iSY&+aufkS/~R3TP0/&tU,+Qr)B2gDdn$I7,]?OhpVTv?*eL]BimBD6+CTWPU0nVmPW<eyuc.v9=ux4Eh4p
7iH_n2egbi))SSM9c<Qh1;rFa+!IZuU9_3X_UUAvj+B4d+GYCqImqp__$94]sU7?:riSF5wI/R~=9a0;90_Os>RDD!W%.T&T(.3
k2/ccEa*JX9N.3gnry/cHxu*!M9V^s&uvP=!0;^*95?tg+rwb>wn~,T5/JwXme6bUkco~y.h+2oNORowc~iLV8+a[<^jBfw=EqK
^+1Lu)pJ*zXUJmd|gqx)a|GI,%Og5LmZ;u*BTkaM/>,>ybl1eQqb>qXHD6C6:>_h(=|A)18OO+c3&4[?!0oGOmUZjaqTn4J.ij+
uO,P5$Nf78L,S[o_jvCZk?X&VD;B)3>QS88ZB[tOPn1^%o69m4O(1.,,>d8i*Wh6+qX7E=l3_vBLNxO]^mNL_u8k73^Aq0oKWE_
6PV62q[]KlRSm*)_8Lj>AVn;,W0>n~Xm50Yp2w~;X6j!+$tX*SAc[h%_2)(mO&>W2gVL7<MnNPUM][g&ZtFNA.DPl9p|Jb?!dX$
UL9eSp(7RvBG6D?g<wPsNchH.W_SZlsxY]*Kv0Tp!S1X;VOt](mc6sX/3JBX7gZ<b)lg%qHB_^$h.ECXm9o2Pk_t=r|lSe]cyKp
BW&kOVcbIF6J_DE!~H!H[UZC0QnaNVxSPW.<uDyz9C<jhk1Z*j)rfpyQdzt<zI5!CVS9]KYDVda3w0K.m48yB;i0^<uy/x+R]s&
~q;ksK8B]f/Co]!zX<MQy*hMZ|K+Hm]clZ?Mt4XBp,|d>1YBJ_^FWT=.(tT3HWS3yxX9.Du!w:~M/1.U6VPYxe]aw).ucb4<Bt4
,BhQ=Z$~^P3qugNgVS+w5*^/bWdjg9AiQ^Y[[DMd;^L2(cL>jAAJ.XaNXP433+mBft4P/x^g4:3ZW:Uh+NfzUY++|h[?.(F.P5m
&U+867lak3_DsoU$Qx4dPw(o7X76rz:u_W[A(LWTF%|j3($s~qg*:p8i.6necYk*XuUG5qL+L/k+y519i!!Nk/3<092;OD_,(Pe
U:<|Jgp<U0[O^fpLNJA!<z]lkrP.%*GWHbK*e%5h9E,eJru&WVYdg<U4_8y^VpKRW?mNq15s:+yDe?b0lms:exyh_6CF*sXxM2X
7e54z4<GP.q9U%69MGh8d9Bg2(wrLgYdC6iTp3cQn3t6=4GdIx8eqC*=Ub=CTWuSH?vW*~qH,%<hQ!b_HYB5VL/bjhND8?Qw0<%
A*%xdS,Nd,&m5TMnlzE7DY?^,b9=iDs!b|GNv&9z_K.XIj,4Idn8iy$3c^OJ</6^nHurCi+nr5=b^!YQscxvi&HI<R1JeFk4,mI
0~3MS9=O67AA6)xylU|Vzvb<;mab4agt,Uv=wJ7q;CtcOODG;nz/8Hm;*f8XiPPrjx*U~<&R8e9TzT$FUxHcXfkq|Ui!:E%9AEm
H=P8pXPr*UeizN,?+eyXzu%k4&=Z<cwB:+uep)zVxHNOPPXE?5G7gEx],q*VR<gj,YQ,?3uuc6:Xw[Jv:m+px7YQ8~e9PbI~3+E
4;Ts,Z/=Et)HW5aA&p%&&*gdqJAzq(YK.veAUhPg>YHG4i|VvElhF)PmqrynxBL%ybFau1TYJ0<6EmLdzzURGnZmI!?55Wn9gH)
$.YA=4s_k);dnbsafZJ9L^uVUSpFtn3q1b0)rIMs!a.xsN5_hzf):PU;a=xAp]</jjf?fhWqjy7P[nRE5x,/.5kdGKE:/V6/b(&
3I%$(cRAjyWf%7Zby,?Q2A<)LC&)6NqP4$n*j0v8./Z/H&90v5/02Dr(I4$A6;ul3o1bS.8>WemmG<23.yW,OLbbXN*p(HeSxP$
Ap.!1l$?%0J4Z;HP+^iXaLbZAU)>?:*~<G5^lr1U;85wji,7Row$XB0jZ7Pi0:fSa<U1kSVJY7dhlW&[b3)1*;u.anE7v2))IfO
:dDf:$Abi+8b9;JI|AR!d6k+B<F44u~_!|LXC^DHxICo.aipW(n^?UE$%xf7(05qF765*lJT*;!bQRI^/ncF&F..6Q>134Au5Z3
pWO=(]Cwk^<dwi8JLoQTfR3b;:qR>r7vHW%1Z:ZT]xO4lRHNxm^EWboed&/kw2_j)KRw;|K_~P<Pt*TSPuoF7b8XrAHo)g0akMT
CDN86j)!8Iy5S_2qk!X/,DKrDAJN^/uYAhk7,LyZIfNCSkO_AJI](XDw=X7GYv]+a05k+;BToOPYr(3Q+5<njE3$^KV$A!4Fvxu
wvBJk<Y^c]+*v?XdZk)d$u7FQ3nX1;GZ7J,Y(b_KBr~Se+k09:pRK,bqhLN+76S~hq$diU</)YrRXPEz_AB^2WHwrk10Vf)5=pd
^uO2*uiZl<0u1?Bbh+D3MHWU=3n2ycrZa6c%HGWC]cOExyFs/6lahsAoMXX)>(+L<F)k.yBMwhtt_z|KxWSw!LIu)0TyU*2^90~
Ofx%+V?8y_?)*R^V4^ar7VHEO,9_Eh;ID7l=1XW9Ot~a6okB6XdZ11a+g[TC;I[G)^e5=dl$m2y+eyq<<VxjSMORL]ypv?dS=Az
av+sy/hI!qE48?pUA5;P6F^yRp1C^lo:N=yxvWk0]b?)ESgpFG<&T>$~roN&fmzk<ZebkFFHK>RIYgn>nz[zW?P3eyGpnrPhu/p
f>fJ[=(JTN8C3phw%].]d/rqTFtopBSdh18w4?5I2r|lsv;;PJ<SaW2N^NM6U3U*PQLpFq7%5lfL&,a7,=3&[mC,KS$glaJX5;O
|cW^uSxm|D0]9sOKA0SV8ktGMb;7s^BPkT8A906xb+7qT3]y_p^WJcV3z:H4qBk,iC0Tq:&$ZjcWN%+T6qhf~!tDl)KO]8&SI3l
yGHja$X;?GCGjIt*,5p+EM0_%P8Qh~cjjA*gcYl4o2U+|$Cz<v^GfV/;3ns^p_~2cT[*y!u_90DYqk>,>6;bofQ_;0w*l!8>](i
0|+tkhk/5G.upL>FEkt]^U)IcL=oA)J56KYCs7uXhPtM=L:gHlPxLZ_49=9=Ioa!c)?$8Bkoe)&E(>S?hZ6fP;u>MLm=TZ!y^?s
kC=TH3nBe34v6v~<;qU$0d1)qGH_zJZ|YNVkrD2&jNTv!OAgQjbx(?oX7+%2BQmB]l>:NaW_t0>b%XlgZ]NO2Rfo:Wfu75qMZEL
v5zU]sw9f_HjwO?5ms8l6Tk!M+OlH=Cq_Z5HEme$u0dZ/U_|^d)%9QDg2+Y=3Wr4RdK~ILR94BS_>[DDSLGu4=(A|UUA0+Xnes+
YK%!cl7G1x4%CAS&_gm(%a5o<H2fFRcMOYAqop(oyBP)L4t^ZcE~DLBe^Jf>??qxNDT,lFK:/]xhEh=9gv;,qby>C[&,ZplhJ.Y
>YX()4$L7yn,QnD&]Ma?n/JXHlFH%bctogXpOV21_~KM3=^LJT!uA5a!N3pWfc1kv<>U6:5~,e,dk0D[a(eRr;FN=viLE!xH?3f
_I?Pm1C8duPD~K[$fo!ApGVtDtS.jQB:Z:PF80Vp$QDzY;73!;$,!x9t^E]1~9Z74O[zDj2)~P=LskC&l8yobA+j_!H],s,sO?v
g2OO15G?:qzh%SZLZ?U8^Kn6K+4ah/Q7r9]<k|,WwY?iJFuKn+t4BGzRQnP3fJp!BM^CbW+,(TLTwP|OTM4xjev_&XD:v%hUk%8
F0Hj3x,J_f~wo_TlE&$=KV_.NVsPJL7]XRj3cC&0p>)F)GGu$a8:NbpxEHYO;CV<PV~T<6/TPe1A8P9RxU!wzLn.Pr[rrRY[z<F
JR~x06NJ~M1U8/^[_d4|0>yS_ZW,tc+]>jVbjsRQ$an<!]bW!0hV?CX^ShfII|?|HreEiXiwtX=P5Kc,UJR0^ok>ZL/].ZQPlA~
JM0MdKQzdkaT0VDB*W)Gs0Qo_m;LzL!zUxapJ5eqn30_d0Bt;_HBGRde9]U/zmXN_Uu181:8nqa1Of>;*q,B<E^3H/;J0;Mcd~h
n>GS6WZbu]:3DM_=oonJ>~),m?YFEL$=Hv5E?8:cTAvpB4c0bbyHoJa1<6MhcqUV5SXq$MxI*?P;Phb9CGge&6&3/KH;O=Y^Zz_
Uew+Y$teB,Mu=ec$tMs(T*Nsvxk,?Dz0d>7X<d&0ZS,0li8IAK!4w3AtD2DXeZ~WW!Q=ebBy8rY)<^&gtZ04TPrF>cu4E78~3oQ
IFr+>y=~3,[RgCA7b47i.Jc7<c]<rlm;y9P4udt1yFF$ylT(rw[NXTHMrlahp:X(X6P[$^=pRIsfA<6S&2*F2*0x=|:t8,3|xm3
xFVWEimnX=;>xFYeG<v*:+B=tgZ,G*Pnzbgm0:+AsJUhXn],d15,Q5=Lt!VL2G7g.V^,$J6q6jt<D0ai07,=G;!K85qGUTL~l5<
C2.KNGr3df0h4Vq.2&|NWaqk,E?=>ILSms9HUxUJs.k;9r&x<nVhjC_!SXC.4!$f.DKh()h/BLi)y7=m.*t2npKmZcQ,vL%PvnF
xez$BPuO.Wiag/:,k3g9l:f<9L2kmDV4A/4y0w2jwjdZ/!!wsK3xk3I1A~Iy0RfqwUU)4Qg5no.V2J!;bC5e9[s!^|J<LrkkYCm
T$Y[pbeE|f8oJFfLc7UD6yY*;NnP9qmtR(|!6p?W>awj+/:|_mBMwg&:k6(!gy_$VMiw~Q.TTn)s!2|fazwlPWcqs[kTaoXN,KA
!h37t*K$)C1z3BWPy=g*^:qsl(4*gC1e[vn?)e]dI7dg.d9=qIiu4NSi/+5Rm+YHN$c)E5&DONw&9)?;V[R3X5j&7+j7pKKGvtq
lM7PTeeMwez*.S&teX0n!VAAHvV0m,%K<Sh(n!B+WvrnwkLXFZ$Gfl0m1ZQs:EK/$cwUVrZBd=oN8PDz7^;Lb$DC>mWI;>;>apR
~/m6<KpLm=hs40;oV3p4|&aAt?qZ)dw(!/+Qz<~Dy5u;AkEkK?9MKgEcW$XoWvr_8KL)WBa!wXK9vbsOa7yJw)[gkH|X1!UJHCs
dzir)~RZ?(vJv1v[G.o+|v!<i>M]_ClCO]!bVv<>^I~*GjOy:eh0=V8)/)!tT8KV~o>Hch7P+0vAK!1&8KwefibFS_(:Ay8])N>
|Q7<N!;Q1v9w.q9m=,nAN$2]a<d9oVmzP/]uG)g>_Q)*::TfhzSFeO.jf,9fJ0eui1~~fE|qE)K5+es:7%aU45reRC]44+KL|F5
QA/n>m:=&0%<4Ld>M6P;R>vtTh8Vv/;mI^?~vp|&p$|i0,VIPn3c0TIKqmoiZq^+Hi!g7|GmC,9::EAs;2K>5amwby)v2?/D0G_
KI)Ns5Z!kkz^7+(YpWqGZ3(UT]4p8?^>RH(RE2w]totfS(,eXDB&rtN(T^&B(oQf=l&=d|(*IS[$S*KWqPUu.uZ|qbQ7b_b3aj?
]=F5Tkck(%723>k7y~bb]hiEsGOY)_(v+Ch3dwe>hWsa];w/x[5NFLSGuGT3uHosl/aH0qoo;!3PGc!D.20Hl,Vi/IiKElv&hrr
MK.i(LKGh^b$sRnVaX%4&YzqGdk<WHjD=GL<|_1m4:Re,:zZCEA.8cJnXZO5<&3!!6rT.q587c783xmaA.;C9diixi3a<NYVN7G
BpS!Qk/>l0SRM%?7i|Ka.>xY0W*6)$Nnl]1W>1)7/2QQJT&&C&Q$mLX*^>U]hzxylXPbf0mY9Tls/Qopk[;sgxwS;1>uhdYee4w
p7+XbzR+!oZj5f*/VbjJSj1Ft.|xlNxcw|&s[h*y+lT;%KUwTihFq8%PeX4m$8fJ]F+lA3x(MPx^ss~;U9Ui4k7/5$N85^8eD>>
R$)*IBqETk*$n1KSvj)[26HBcZ,X%yv%UATuDCc~!_8]G$><m<w).X3!KU95+B6u%ovuq]k_?aSL]1b,mLyPmgv(hL2Ne|)h_&[
79!P&KXR~qVSsiKu1A8:e_^nQigOUL)]hy(0,,,sWnXfobaGl(9!(VzOIksg!~2|vV[k3sA=Mwe][~uCNEe8uzE+U.?Y]h^gBS;
lyCZQNDBnDqi.NDpkNG(0ksZ3I03s7kf$bgv9c6DVyfbcLPnP0*cRSE|l+l^;_(/DmNt59wT[an4*MIFu^68W3h3[8~JpC?^BM|
~D0E:+b=ua^QI)C,P[dU=XsFp90su0.&f1pnbC7&yXdeO!n!p.FK(1jI+&=P;k9+w2P8LG<Q^TkIptJc!lF[DpE1=T$vQ70pA[g
NYfNZIj)KDn=UMh0UYsaI?L6H:dUXPcP>HA6o|nX3D_V^TD?|A$:ypgnrwdn&zwlVH++e_J;SeOm]D[P:I!v9hNL?zybIh:A:[%
$|e.7QPRe_Q]i;K1Rdaj0tE,Q)CHtA.t3Ig>[qbV)6_$eu%J7ZF]C[b4v~Yg(eDT(iCVE)u;M!sJ5N%RUpG?Ct3(4X<J0[QtF/=
U3nWrd2L5NWpfHu>i:YTQiW(&XcNbqvR_Ei9;~ymUKT!&dC!*i38~^)9%EeL.^c6hLm=H^UjX)tLG2ABH=,nFKU9oa$LuH9v&s>
gpXF|+8%~/g[s:K.U3A8Dm5hlBt%9E+1&dF?zYQ<c56aYiT9x[maX>Fks*C~tq[D|]M5$,%Q4+9Q~>aQAz7g%./Z6nTHohnAnJa
2hz.R_7D^KPfxV$0j]/Ng0e;t+>ung>I<ID1mrAWlxkfnOkYjfyAfj)CTrrMVYh|%nzJ+R/vzxA:/SS>aY=rX0L;LxM(Q^E.PMn
Y?^)~_YruGxn2BklC%9_vX3fm]f/Xu7%FoH81>q2(:>c:XN*hpq0eSTYBf_nDznb.Vt(9,HdU_0Pni!&=KBz=:?PhtxZ*PC|Tan
oo$0%=Sao/3gT:3aKMh=qb$nr.*[H<K:BwO4d2vS7fd7jdP5_3RqAUgm6NyhTqYv|/2$L)aEoq5YaITf?nBbMdZibpGb/u_oH8[
;*F?.!!EU^dIo8%~x(z(P^Cq/qiosjy7%YH)EV]gyZ&1i]>hj5K<oM7mk_tVr.N$z*o|>%gu.P,enT,F)[V=0<AZ3iM%CE,jcXp
k!owjp^Hafgx_S8uP>6(,zyD,=;lK;Kr(kwjz|AU$~Qj*wsspjOtb_RfLje^4ERkann5$vg>lwyKC$Tb6?4_TY~cQPF2d9mj0Xi
^f:7f)7,^15i!mQz0CI0H:xNTO8BMjt>I|vq>jXDmb.ldu?c7$4!ch_+5J,AlVX;3m^5ga>q>=Y2?=D3q)ja)7BJ=8oImm_CM$v
WDkB*T;I;RVM2q!$k0j+Kwg$uX0WrVx58YSw$9FrS9b]1GnSIgG,]RmUFpId;wYbE;I*yR&E:Ed/?P|Kq)sdFFp$!uqy4KahM2A
UgP=n.t!SkqNOwXwh_Z~*ke=dAwLo44M)3u9zjg;46;fZo?gvP;+C(,RiJ_:szCas=(JW3cfl9BN,L1&,^ei^w8JIgi1Qndvtm;
qI!?rl;hq])3uM;_if9nbmrd:[5GJcS;vb*V&5]%Hud%2tw%M_&fFrR<;w+Lsh)r8<8N~81bPv&X+tr/iAk7p>6&pwPPQn]],AL
XDSNz~QGv=a.!PXRio+GlJbaRMaU:Eta!2K/xP&.yv0eFT/j~nhNxrWb7VIVh~fm4qVn69|3Bb_jj3zJ;FhcDE3+mO*)l68YzU1
CctgR;DgDu7?|6D:^A.JiDQoANlXJfJ]ZvJ8QLPs$jh%ut1Fk]NeA%!Jg3fx^OLG1EuJWh6.T!YnU9b:!=z=KQ*xikz.]WYnHLz
(5NPqA3+yUSe;l>w,wzN~[ian%kl:5d;5fjAe4gVOTpqr(Z=<<lQMGK*_0)n_xi*GXi/Y!mDU=XB|WNAMolW_/l,_d7|>D/CY,3
I!W%ZbL*?(8w65z~uy9YSG^Z)L|/p,T:)2]8rkLunIj?s<5XL&~)^S4cTR/,7|:Bv+D6kIc%_B59=1dt3L9]?sWLs^8SpulZCC%
&zbtF,GbydBcatxSBO:DzQ<)0jS[sJEqFlhO/uN*rwcff8jn:hz,LG>F,:fV~bY/4m/fmMqIRFVe]qd,xNCvK7hf|rWc?5)(2RB
SFL.dFuPCj3[|$*pFgBFtZZ(y=_!5LUEBM)Zs])tgIrx1G:]H$$kJA4XU0dlBpOj+SNi+^J<Np~,DhYQxwIYBMr1ISSTf&?J1Mu
.*,/J=M=%+l|4MEJ=ntjw0rIeXIh?fu:J?9Hy[TlE_R]~W!F3b1y!SZ!TLL%Mp,tXao3f<*S<$0j302^nCv$1>.a>|kutK^pcH.
PnAd<&JSa8PEMVa!P.w~hCUn0^BizDvf5>|d6(%%f%f?E?HK[EmmFKC_s:?<v6cT%:S2gf)q[Do>8?3B(i$urUf;LFL8>A+z%zI
i[YDlga:TEb86Mqc6hB~_Js&.8B&~dm):x?Q_4(;:[$L(4s3EiBhfTt(<A.IVh_&QOU8&vfxNP3_|hu6R.gG6r6v=lQhq9&Qrrh
4+5hx=>_[AZLu8lx0qM3tE]cmovxV:AC%WCvMT~cr[7P5BWhXo?g]XnbHaLq>ig>(y6UO/,NP]qY6CiCFW%>lb5PkYnqh$[9>k^
ZbGb2b)r3Q8<Ge(4!Eh%iikDV=_X(.TYM(y<sCDFF<Wad%+=yi/63en48Lzn4I1Sk[bzni4SE_Dizs:=<UZ7JT.lAx|EXqw8s((
*^,QcQ]Ts8l!L(%~pSD:_Z?go.DQ,=(:Zey[^aH<FZ~Ib9pInvW_$~4dX9O9j;BP<RMnZnSn.]ZvuSr3?DhgvPOwln&7_+<7Deb
qFlHuvS?(5(<~Y6%2)QD!F+y6*gn_xx6BDhvX*P;K$kNPXdZWd[f+H*oVQ|O*Z3GhMMV^tvB3?lCbbGF%VhlEi/U_Wd+$.+;X8X
4Us$w$wVyVz/9T!)oc9H&/BPNMTHy^y%qT2.ls0f=gR3|Y=fwl,2lGDOA_F7tr/^eMR&Q|w|V/*j0&t>^A:gf!7|ME~M7l$8+(+
MoDqg6+%&V(DfoBfzdyIk$_bj3vX2=on4+2iay$nz&c%z<|TGvEBzo?0URi4V0EYHt>syHmoY9kwT(rL!3ytKj?oYx6w2+BdVJw
sc[muYf$AC2HO=r|)_H!Jk=iAG0q|k6OnC4oXLQUC<E7KAw<;*kCH<duWHu4i30sR5JkSF[|QyZ^hi[aA)TI%~!bnkn4obIG(D:
D4U[bq5aKvbEMs_f^J&]r$7f+0ABLGaEdf>,Teuppd=FrR^:B<1h0;ZzsPxvrABL361^NfA<[+U~tMCDUzno9v]>!4|2gnUA$/|
*UZQ^b)k,R6$[0h9]Ikjc4lp7XIjG&~Ibv[svP<y>JbPA5&W<Iu$o*c<~jSeEQx:mP?&MorT=U~&l8llW47ybq2hdk6V)$x/Pn_
:I$=UUlt)elH5yYKZj(kEG6/s8tCrb^&)vDUF%;um(^67x|J(kLsk+2v/g.<(.8,j|]lD3C(o8a][sjk<62)>BA%+=M.>|^J2e[
XF],]_i+4MjQ9qnu/G+V1qWe,beTVRzO~O9XE/6!>$)L))E3?moW%gnS?96EAUsP[YYtbRB?pzy(q[taZBDm4nHV!F_psBVYusJ
IEpo,6Zt0x/dlp6AaIA;sY8KobGl]X)*s]Ijg5I>$0T6XRU&5+QEvfe/KusK&68vW90ViRxG|=kM9:X/FywjX/Q<nie4[!KGTj3
sEepC)E8/d1;).>(,(t,7eV4X$0kEz:)yF_oxNOD_uAtjFf65s8+MAi4/,E;PM3,[STQD4/L?aD8;zdX(!gVU4=:OIU_k<DnPFD
QsLamJ~P%h3|8K*%9h2u15ruI|,lj2r~,$Wm~M&0*o5pDc[LTc2Q.nM_Ot?.QNFuk_Lkbh//6lruq/?x7B&(JsxmZfi[=_H&g/!
qI3/O]XbvS(27.JmiprmdqkO6!jd~$44hcaNs=M3C4xcZSrD3H*xcj,*w+e7,][dcXb_FW:$VLwb|fX3O9j(kT8egWr^d[%2olj
KGSJpm2OtI^o|a<?FgyL6:hL4/yo./jrW*20t8Tq><?ynr3[1uumY+~gP>|]%99A]n3k*Pv;bj>Vh6&5[nddRyvLz[8||;GicGm
5c0F07qt);K_;40WFCkYjGd<m,2ZGM4P2RzL6Lz^q_^6FLrCJ=1y58|U~&YuX(YBRW_E6MqY;<0zf&Nni9+$$QqO,0W4M2]ga>k
=!XenvSX*GsatmCGbk_ijf?b2pbeqR;oY:QM*5s3ACaI080ArcrhN]N!(|IsbtP;x*/7H+KuOdd/&riD);(3CNa?6B9Uph71?7n
&bkmSr$O[I/.K;Ob=H<E_tNJr5z*9a^Zn,oXS|sa09vpvo;I:y(R.ccV+k3eOFvC!VVF=6]R|U/fJ5jb5?KoEDLDoF,<KyV?qt1
YD8bK/C/%]~G3w*_bj>lk[p|h/2xG>Avf0V<3?Y4hj(?BN_z6WpM<]u?Q_,RW6z>S5,5wG6*)3osYz;.bKL3v;Xc:A&ueM4^8&D
XURkZDv+Ck:I<sIjNW%=2zBOoYWKc+[fDYKURc3,d|JN3QW3O04ZlCgq=NASuYq,2*9uH]8B.BP0DS1kH|[H<(:f7:ynuV2R07Y
]eDF2|iI3RD|NOB65U&q~&tk=.15:=q1g~VhR[M>Qeb.nt+eq?&9xk/w_jhZ40(Il9u;b83;j2S&tt&%V$eOt6h:qADEs$X7I<h
eItjeCgXZzUP,S5fKPaV!Gd50)>vS+lOiteNdV2_8QydfNQw4TvtxR7o)X*%q0CnOPBut,ZqbHMc4VcsIt06ogTQK8pm,tsq%_O
()39dQiH:h;<TPub2maiwx3]ve5+L|)2vwMvDMBfU:6pMve^qe^hLJTm&!_iWujDoZq?X4ck,;RB1<N5=v^d%^Y&4?REr0U/1$F
Pkn9PW/lbyYW.<??GM6b9C_bm_K:[ZOrr]Mi*uqJmIUU]qieYQ&?cJU,WG[%wvzqw7Bi8RyFqU(l+9M4Dg$Sce0?>^i7v!L5vCN
^!C)Cv4[z(~_TE!dhC_RiQaxTH?61vvjH6fiuWXd$;oQ^SK15xxXga4%P&:L%y1nCHKzNeZSw$?trL[[O~$T%y:[y,Hj8et$xKQ
gL*UZJ[tjBmRH|iD^w=!|ImiMfyrV&P?.)Ky(q$|^2GS_Ce0f6/%(Z7GYmjmWb):EQV1(/1>8p=Ka!S*d[|Hql0%R(ab)aZu8.h
vT>qQ[cK$*~p,]=pMb7O|Q23*6rLD|f<sv_XAoM)[?<.2fi].eYCgQ=9k$R5k!pbc!qj1hMJyfo_dfllIXv9Hk>Yq7RJ8rytAiU
MqG;5%<Ve7Q|2BO8haWsV9nmXmfC?l.?(]=V<B_c5q?t*9]/L&SXbp0:XYZ]F$y2)F$h2IX!4>ZZ)aH||N;pw0lLT.T2C6fW*+Y
b[dV+3vEwty0cWrqgcv!ZV.Z|trAM5%d*:Jpa~h>SUME]>iWSkAF3)z$Vn^L+M*bCGt+T)h>oUD58L/TcLz?:P2WH/f?&PYKfvS
n$euJCPWyf<CVUoNn>wSE7NX/aY9MWH0>vqs&vysEBCa&lF&*$knK+jiCpfZUYJ]rT)JiVuC$1h?):C.*k_T1W>YpUToKV/V4lW
:2m(k2^_20RV50).TX:xI6JA!^~;=*c~Xl(8B)t^roa=.4X!Q8UZeMG;rBcrCuMx/&V?XPjk+%2QW5%RIkVWHAL?J1cV+KWgFZ+
.qeV/laP(OD9Pb1+P=B]mB[:>et<+_1w0vY+(^l<Y8exIS]=;UnjrK35d:esjVw>RtacMxHj3_pcl_wMP=~vU*]IUB!EVM7!IRY
$[Fyz+.8>ZaFy7UIpnP~?yE^]R/&/Pp~M0XCTEW(%4C&8>Y~DQEAScSR*p0AtL+0Hw=?]|?wg9r?PVhHhwk%ZtC(mIEF8D9%z|c
;zTC6kSpVk>Trop+n(jCP1S0;>c;(Qn[qvnHKru:E?=/sWd0E6&H7|4C8[%Tl8Q7F|Y[Ie=.+vvsIIP4EzNww4f1en?%DsOfC!g
[l|[vnC(Vb[![wAB/+zSCKvP$&qah$_x*;jZZt*3sUU2KEf1k*)h~w2MU*o,G$~[jDoK9H/[LoSUSuLE,z0ldDNS5Z5+19r;T?6
S7eb.40v<=ySy]%Tz)3FemE6kVzL67ZmN&il|5=_x9.10oDfuG&JOeuoh%djMne%iO04K.X,9f>WJ%&yfPO9Advv.5N~TDkH^=2
YzuM<BxD*K)F~NFf(+X~cqXMqy%vpl9g^f|5>YrzarBh3?,$^.~sa]]ZIV|AVHB7aBc:qhu?k5z0Wg=[l35v2[wW4;R~Tq//V7)
1DzH<JZ=c8L9jmN]o%+].3tJ^!HxqMcZ0Q*PtWtuq]<a0pSXZJ/i);06NJx%gtUi(J;g&Zn44NZ:[SK;*oQdV:OH[[?FcqG4ERr
IXVgTykCz<2bI*IbRP&?p*)!8bGvplVMXq5<q$B/r,eG3lh^rn|<S9^yHpaA3:o+q3~_H]ot^&n;epsb%8DjKlTe*19%Po;K^].
7FA*+8,[5N8|52J+RH7dUIl4%m&&,oLoUw6HmOY(Ot9jwTh6;=;JrqhwXt[/skYoG9$i1Ix,i;R2(l4wEO[/5Q_hMVSg!QMv$TU
9.7R_8%rtxI%b>XF4h(l~J*!d;g*0SP=1_s*YGmC5F6ypDz(b8|+97jyNK:GtXV|0B2Y7)DZa&Sxdc:b8;y)(Q<c.vuSU|fWrVD
1BCR[M3I>]<qAH)5CfvN7&_;n)nBa>qnlH9(X+nUlGQC~[Majv&rk$I*!Q~D*MVyf$(a)cuQBRMTQp<b2Mk0jP4q7);Y%|Um6K/
I2F^8e<2p/T9Yif>8]+qCrQs1F.)ojMMEz[E[$,4$LNdavCMJ;Q=TeS&v2eHu|U.&%D89?CS>jjvt!/oal!1HV6~.!4N&Ba;Te$
CyL+iSXMR<:r[rXchQ.jMX$f2O(g*hCuV1;mm~IpN8v^jNojLvVb/Kgu~Th5*aXoP?%9;OApC*,~EZh)MWIwi31[b>t0KtvTVir
29f;UEjEXlywpNfSKi6GwxS_xZ.![Au1HSmx|UDL/0Q57*og:*dB1f<&MNcZ_1I3gSm!+kD*I<]p2CQ7KgF*8N;8(;s3xMgJ<=g
$Xr=Kq3,P.032hgJ!f?+:dc(vn9B>fOxY!.YS*3_o>&F;[8,1UM,Sj=_lZvzEBtyLVo;U_VeRWcYx<(c*z<w.avIX|jerSP|$[T
Q^gN8L&_Q1&,p+iU^/FqDNd(Mo2(HN3Vg$:LJHLp7)>[STBB0xg9%&RDd&~eyn%N).x]Y5<[JL=0S3<I_o?5knzvcOHY4j_+,nz
!(ZPyaJh;ov7Fa:;K!C6S_&vVXwIRt+Z!PqN<RLH:6O+Fn0Z7^zf$U(u(wmbVXAWYs_dIUy1!=j(8>[)y$;Bt>1GcF5;_1!^G1J
|*0$VGCAZAuKi;p*dyC:u5k&7JZdJAABzGP_f(rGk(FNMv(wPdX|M2Lx[mtg64~[]:DNOG]<M/^qmn|IMJzgpI:%^H6hDNWC3~v
2aG5:gNx?wCP1q:Mg7!.9ZT$lAa.DdbKA]ld$d*?;zR&/~0+Ac9q.n7=R3$DkXU9:qO%+=OZAWo4:Mq>bPkZH.7&o4H|Jg])u,g
^BJ8[UE~/J0g7rdW;j^P>rDD($^g$GwV:L<Zz0Xip^vZ/*i+y]2VhO4a__|f]BL>JGXKe$TP?m~Yg~]5ZobN]GA%~DcKEy:9r_2
9S6Jp+*C1g.+D[gjB)0(|kV$C4jm.|_Y$:PaD2jdsjAB|ZUD%aLX7YA/vvlOuF$nTPeO_)aLg;dU.PD&K9<rmoI+oRi96e9U&)o
_jarWjJ),D1dMbT+7AV1>0FQcA7A(<PVNcNMx6n04E>gyX[^/qKa5,z3G(voQeZ&;0e_cxA]9c)=d~/|f4t4dNPm+06M<9%C*kr
CpLU|zs|SSZ.7ImQG6,)<693Z*4]=7iX%%KrDseT!Cu,ji~RUA]HYiTb,4*s7RQlFF36Vwk6d$8<ScBje]j%B03;F5?QP3T_fIk
KlGPN^xT=_CA%MHOs~Pqq&sa:]OpFihe|SYQp*+XfYwayK~4T37p2/&ddOy/Hl8H+Kg]GK=N1462*Ep5e,gpJS/BsfdB,2$Dtez
VS_AZtHHF;yuWB3($PhM<.f[;<Z0mmE>E]jya+7Dgg!Is>6t)5VZ1T;9|:Ry~LkTq7Q<tGtif[?38KSl0c3+JxKI9gknf*)MPB.
nP9uzGQ(=pEE_r.T(~|NhP3[k:WLiKm|zqrUO!7=(fXyR!l~l&rK*RSVaAZoK1I>XU$u+_]lrK]8R4WS8[UexIvB5;H0=:^[D[+
[!5XMfsjfT^/pqL1_fl]8/M!j^:&gMRSPiha/e/gr<FZALny0Z[9ZF(YfKe,6<r1lz<1O<tLJBucFE6$cgGUn4Af*|BG/F!TkGT
:92_|pWj&E0g<hMaqn!w$zT/ZAupCjuR,4S,aw%f?Oi*Ya[AF*UwjF3&<I:aO?RC)qwkD_q_eDGI>X2Y[BkEfO~^h^:[L*?s9v:
n8B>:vP43(:(Fm~oK%!u[Ss>)4lsO?Qj>o)XFlm<5Kj4C:[$Laao(T*j+p&Xy4cZkT;.FOu>ZIY46=s~&[tDBK?[9SB0cR3C,(f
!r)sgL9sO?e.ZEf/QrPz4G&LHCXXw>(:IBz!xLIgT49)ADeg*mRki?v?];V2EgMzQu8uc,D4CVSuAx&7g&[htAHuXA)yhJQBZi[
s,tyoERI,l,;N0/IbAkbNJa:mv;3C1^g%^E+CY$44dqsY]sISq?fPr.:[c63Y1McQI<wwXw|>Ewc4(9h3<30y?:)Kz!~mMTeai!
swBPLXuBh5B]l;$MWEaeOY51%VS&Y)i(!.u~KaT1.JSv0Q|o$p7g4mn|x_zl[$XMZM]j*P2?d,4X*];k=>[GSM+1z<YXb(Cdh.U
/t%Lp>abR;InV)n(t7f2U;.6B02OjGFlu:msO2,8Dm/MMZmAC?^&a6eQ%&1zMubtUX~(4+ZocgjB0Gwi6JnbRhJ.JGTpwVlvCJI
R]y!z1t7?u?R8KCdqtPTRj!y2g$&RRz^mg[E)i?VHAr4Qba!cgYMn>YO|4mXYGK)mF?.zQ5V<Sx!HhLAr,)6v=+IHr2oZ5q(H(7
T7F|vWOgX9%k[T60PkXLDn1rk.B1y~a&M~]D7h9]Q)_S!aNN5u&J/cG36?SU;*isg9<33vH11P/dk(+v4YUt+Il7.v^;O>PE8c1
M5(&$$4%,C1FmJ^_V7F:q7aw>:0/2|PfthHjf++Xt&Yo*NfKpJ$C*n)L^5u^3vc72FHDZ1kP5Au:1>kN6Vu1DWK|Oe9<WIu8)g;
VE0+bZsC[F?]n&fFx_~QZWmhps<z41^$2lW>p?Yz$%w>n?bM7d=*~*w:eGP7LapMqmkGZ[k]o6>xmaG&ES%~J+BFHI6E,DS8t..
B1^jEk)7OWYqYKs~^T,T^mVdYGq,m;%x|yL(Uvye?/=bpyL<I^8Ri*4:uXwAb,:HmYh&L.,RFR2&36G4b%w;hE:_<:E~wGZ2(yB
!~NmfiFMg&a%_n6nMV%]An2EP3dViM|]H=0zK3smqJFM[8gvhH?U5mLY*V3QY?.OL*kNer2kr|YK3PUbq9AbahyuM,dOQUyc1jX
D7nQuiG9c=H(c+asM,^)x$/&YC&fwWPU]kDX29!nfwzMbt)Q,jp/fm,y$g_ACkno5h2o7NZk*dU4LGxm&!)z|L?89cNnsVyD<<P
1p/sz<20^0=^o4=9HhDuk6Uc+aq*(269?/7)%l(rH:S=H(e$[R|([|:];wn0+13?CiujwV<?9gfy%_;M.KIPga&7IEf0l*wlV82
h]PN^(hJT[v=6%<<J3F[Rd|s0/(2g,(Kz$Y:3/u9?8T]4/]<5~9l8630.aRSO+wBI%,mU(UWIx?GW(.9y5/XkZZNslvkCvbDoim
Jk|>0]U:?z3;K73^d1i5H6VhJ)N%u.xbbec5]4eru=KAU45b~sW?VkP[feZyc7&n<E=K;P5(</Ogiz3gVB$;lO.n/%xzSdm9XwV
.k8QsB%BG(r4y0L:NHpex]pI)&d!P/4MFLhFVijMxG|nD<tIVI^SLDd(3+.l>ErO%U(C+<)=o!tOq/9C&b7br/dcGA+T?XE!~qQ
C;hoafHNDv/9%.]vgIRNzeI3l(X.d1=Mk!/Pvcq*g>lq|WjxE!hpdY?eHmE%Xq;Y%h5Wu<x[)yFNVL[IP+NgLdzg_jtIs011;,6
kH6|q2ZQTCpjT>FL2EqK9uOIN~n8bvl.Beu4q_&v0f;Y%Jtb!9h<88f<<q_]fl.1j)!AY;d<^hckj.pzLz?7gw=Aa(fG_BOILA4
55GuoY2=zi8i1.6F~^I0V+Be(vr(A/3ESVC=ac,(wqx2.et&=?cWp0C_)lF)ZcpXOyLKg~QRbfqD!cFONSJUii0]8qo,Q)]*+6Q
$l6fS;0POMygVz;)E8I<d2jxi*zjqST8b,j$Kd.UIAfp+OV?(QjpBvmkOJB:2OU1Du=6oj/PPh_zeG~f%;^:+j[Qmc;Lo0tub]P
dO%a1sz>5J8Bz9>iD.P$nsdr.U+3W]nct4t&i[W<v77:ikg3W8]XD.,:JJcUXF>=Kf;Q=U*vWEf;a8DfpSx7.WJL1,,*RuMdD6m
kV_ph_F?nJp)z<;8bkYhNv|o;?KcF?yIlX<f^sfYvT4s<toR)9t._nID9zdwbu)wLlBr>1lE^:tl~h)H1e||,KlYMT9~[THcVsP
lxpv~qgvEAyc6P:N^B6G*IYUn<:x9S:Z4=JdemjM7t(ZViXM[Et+:zRljpPdvKuqdwvML3(j[.K>M+2V)MHy>8,dsqX:M!7FQa<
$([c=;AY7zS^nOX4y+~HS7.dmw4_a0g4AR46RtzTxpKkC$!.e!=g~&u?Dolv<:]hLc.]tgCvAmb)OxMB08,Qf94m]u8jhTimD]U
vJC[ndfwNTNMQI,X2as3$I(,^$LMSRlYKWWs;~ZPoBxmzU1apQ4AN?%fi23WUYQl|]!fVw!9884LrLS=*SgA:L(vBVZm?,yX5IJ
%$Jps_xs*:dXDU2?w^TT=f;rt!L5favC:f0sowNEt/f0iD^(k|UBa[M[Nd!leL|VOGY9~F&3w]k%=a;7]2^01U$(fpnd,+KPoAG
MZ!9v$kg!H.nl.t9XyDM9>4$k^zl(Izgx4DKo!rKf8kq[+.9FSX(o:.C0naIwq;u;4K9$mEOB!..!(++b/PtZz<vBbq0N)!us8o
pxSt11!]FR;>QZak?7<4ogmH<J5t~hVezZIR(2v<lW;~hs(Xuz,/_=hiBr?Mm?28cny_KX9g%I:h_bDlSSc|2+HjS2xKV7aL^Er
ZUxYnP2)gl/A/8]fo<2Kkow2bFJ+y=Yye~r9k2syiXRfgSPCi/A1eTe7/yaku(I2^.=%oV*wl=(!<x~o?Id5S^85/$QUaynrq3]
JhPl=Nm~7;1?/V&l18sOfCM4BNE4NjCa>Kn]B*IP_zRVP5Hen.7VH(0wysgiEs(PpZ_a.)89x]Lb9W1sljG_BcW;,1bLXz6*kwm
V7wgE7v/6U42^l^nsiXmR_SkkDG(~NAm?N8k?KgiGG&*RA3/_4jmZz^1huEu>TQx1_QdOzSgTP>X|DrU<v0]%%A7OQLw)fmYD4R
4kikd9F%t^;eGxHQlUy9<7C];pXZZwtkTkB/o56$|RY2NL5y!FE/++hN<Y+*q]RquxPJeUL|IKi2R^F,;$d>R,!8N9jCK2^<OL$
sOpZ%jQ<&vf?j2qR,.&;Gu;w_OLzP)/YUS/$3YXY36f(?R)$U0[QRS6e8RfrRYI.pI]6W/Kr4xOq4ofp/8M_h_Cqtc<N:sfM~]v
*G6|;JQV)K3g<~GbqxQ1Y&N.gKM&9ZQl+cEf?U~PkBEyd9:f26T;r)WHsNIKxMUIW1hb:bJ8A0Lr_394Dg;^<m(U<|r!&H7*iap
97vw3i6_gH(Xmx~+<]|dT6]r49381VOGr2ET(=7hYS_O7kpL_dp0+j<KVN^v.bW9dW%+6/loFRmuk2T>OsqN!9hJ>;XlOn?L^2_
Y+_rDERN<ApcI8zE1Gb:)sbEpE]wfg(&W*n8J8L)xb[m.Cel,(=zWQF9j*HZq(7*g4XV*wmUVYd/)XQV.(d6_f]QtUI+lQ$JxxZ
BfMi0Yjt/>Ai~4j.]X(!of$|lV<QiF0)r,OOXrkn8Aa)VqgaHoD>j0njn]Z0WS[58=0wxZ~huGfzoc_q%Hr0aL90R=Z8n(RNU]G
P,*COul_,=AV1Pkx3y9dp;a|>H&V.%BY.C,]T|.1==phlLr_mgQ_x?B?T.7gX*jdJM7!|>=;0JnvW8*qSLk;<C%R6T_rNSpBz5L
cUvbU<L<BXyR<*IbNNE%F!r&d:L81:D3jF;s5!hM&.3)TR&Ik,!f99sJ(Azw.+_7x7l|tM]HBJ(y(CV:v,+6;2(?H_w<a?ag!f&
_)u37|g(vb;dIXI,n=NdX2?Xq3rm<!Tp&4i/^MXxPmdK4_dpfh1DTrWjcd4LVu)H?I6H=u5n+^m1a|C?.Nu?|XctD%v$Z9<s^lJ
hLI!d^Kl!l=8R:Pn<FX&P$*6k%LRJMa=c(&O%P%W7T;v+Bb%Plv|)9MVrTZ*P?)mX!4w.?W!!oc~.jxy$9hkQrn/j0)N4/P%3bU
6(XMnQQk;=hE?vek3z1I=[Yh1k?RpNpJiJC2Yk;s00E>hwsO&QtIq<cj5ptyqV^slmu1>^QDYk!.bZqq5JA,S5e9BhX!eMN6%uB
[1qM.1h.3Cw))H174Faga<h2G=fN47+KncWoxpD8/1pZ&Oj>LC9h4TchC)$g(V4jm6>EZ7J~!T1+v*26o$myywkl].v[Jf20DtV
nCk+n_?LjiRW!P4.k^?Z&8qnd6Kam:|=&F_G=PA0&C&*<]g4e2nYvtR[k)y+3b^kP7!A9b)a]]HNAmTv8^iD%FmMe~|~tJxvBL_
p/cX,YSuA0QOSgMMzmV.8DUbdT[NOT<^y1%_TggSCc*X_NzIPzcn3Dr;Q^tEq^%%Q|N+q%4$a)ABuy;NSM6O&2_E:!lgun8TJvw
LcG;&Oz/eDOdkbi7]21FulE)LaYn)/d|c|Ni:.3=(gZ4!hXAyv~l?f9I3(eZC7RVL??o6E3V*=7iC8!vvM..*;6^wwc^Bx*oPo>
R5u.?ac?N71o[iWAmHBSj!LIGTA08X2x549|A1!nRMuz7Hdl=DXPPGaIro97He)WNiXiv58kr1nNNwc[U:2;TQOHC6t[IphIJ[l
w1Js^c16y|Hj9YvZuO|[=JBd>+z~Y1tVcXQM?)<x0Yo/xIg32+x:UNk%&73bd6&jgAQ|?yC5JV,%VLPrEiDbwV):3lMd!jt;Il4
.Wp$jk,CudQM5Ml6?kwl?Jw)+<zKl9q(_FAU7$g_Ss7Pz+w.SRzBhvhB,;ypjHTEo$3mF?~_Bs*Mc<z6ixYIeJ<;:?sDzae$0k|
)R=S2[Pwr0=MTLIi>D<Iq|+^o,tZ6jL.Te*F5(koOZ&:Gx73A1x:2ngfRP>19W5es1/;qu6&84vckxv;T75k_Q]Z.PRtriNx^q=
4xj!b|+!1yo>B<[+,2uN3~tb^whOIuBfiYJ)KVN/yGHJ*|cOD5ITULwMgbwjyTVkH)tLqs|c;^YJy|[,,2g%qBKx.c.snf9~|+)
_D%%DtOzLUs2(7K3*Zpz/eXb3GUL7lwZvSXn_4r71SGpunf=/],h4A&2E%RL9,rf(=PwHObez(NmFG!vb76YP+=;?aq:.p4EtWI
dw+1lfuJ$]_YAHvLvMS!lw7]O=]|_.=EYrkqyOC!)gsc0AM5]!z1i_NsIm3f9mQevR(p^[KJC,mJf,Rc2)nxm**o/c+$:8EA_Q!
]qr1]!)UH[[l7L_bZhwf!w%=,KkQkcveQ)wy/~zzs?h=9j]3n?7_dsWiSiZTxD;]z2lHw?SX8sJ19MdM$3DYil(L[nCUC[&r*cr
dC/uHX;ET0JQ%$uQ)R<o)S5sfeBVs~nuwzM]buwjb92C.?gtk,/0D6nn)[[t%82FYDkB78K$iLrD<:|>I9fUT8g7?snd$.fGys0
FANrLe6_.tfO$zEB:q2(d4uP38x3W<D,reR&D:8*:?O5)ocQj/as!Ey>GHSGND,qW<Gh=cf|Ei^~p!NWER+n:667dJ7>Rgb).Im
,.4KxH:ilMYw9H&GYm7Km~:8(,(?iLwaRHLUEyc^%w&lt(7?qZB0tNVe,rSmWIz5|0Eb*&.f)VyK,^TVW.10Nnl=<+|ysx9>L+z
5_3QU$r)o8>_kZ2p[y?I]zoQ6[kvMjRXp&fm[v&4u8q;|zQ)o*kySmG(sU_&2m=,)djaV_mrc$B;/PvvDGsvDtl1:=sYa_uf.Z!
Cjysmvr5>vJc]lpWR<rmo<6yBi?Euse&jvUawF^%/B:(iwDv^4+ekh]g+,IFLQ[Ti:,Ue/KJtx<SE)Y2%Ugs1,i1*3zKL&/if_J
Bx%]r?~F+sBCsO$.tHD:?a+)V,u|bgMJ?=TFG+~LP&6pQVih845]+hEJ~~bngIB%gNM]P>|<3ALVi%u<qQ8[Dj~aEEfHA5G^Wt6
EdTEx.9?(UAK5lKQnH^p!;sC;u%o~=wDwn*vGoYQcr3SO?D^!>+Sh0LxAN$ZT&*b1_~qqeue=hM[c$BI+[P4o3M9lAGhocP4wE0
RnH4Zjb>:TD;O5g)2FRtcwN%3vY,[ze;>.4/6=|.?g4zG[4;Fj&YSjxY16+auAnMRJob9^IR,AtrX$]6(5^X/!gq8W/?so,)<S7
P5TxF01,MG*L9zw)qxg,k$amA(TAR7StUtIpg+4F%4|~OdZY3L/+IF6X0!]yVFhwnP0*HGX=u$RMkHzLlD;hBsW5)sQj+O_pF!S
*%9[Hbc>7E.z!Y>:=1D&3y(+3).V9MG%5vKO.R^FTSBu0PL8Ws/%;XDV2;rIb8fkiyu8lRNqQA55C1_+]v&65l1XjKK!X=nZi40
>U6e:~5vDjb$iiZchHJ1:=SL!P>T/Dn.H&/LjVTky<SHlCXh>yim1Q99d2a6DRvrUaK)i^/WW>Qry;P_j+P|[1h/a9lXYF)4C]H
vA|s[E8oWt&:o=s?Z2IMO)hsV(%AZpLnSI9?kB]!oQjxw&d<P7:zlL]:9r(v!BS~ehvRoZlbN1C*J1Km0nLdd<BcBHIlgm>:(l3
PW(YY0N4*a9sA~3WS/w/I&(P+/[^Mv7MV<Nx[f>_Jw8W=Ccd:sQEmhAm9iD|0mG+VOvM]5Kd%NCPKjZU|0a!os;%ZEb]25]d.Hd
&JB![7;z[tQ8RDezKwTep!sWJ,BX_5?V9WdBBN:VzFdJ9UNj<zV+e+D_2_NP[;1LM?HZa&f6=vuYT[MV:DnJ~!!d9BdI$|ZOK<e
n6YBPW~oW(%^xiWNw9^+x0mPPh<6XVo&TMd1CTw!er0GlcXAZ)t_uaTH(M4WyB2XIJo6=sl*.5u0)kaQq|)kP(=vGCQpd$WI~gk
(LLY7G>$*;r1cN:ZIx|q|pSW^P[O^bQp3a&K:Q/vM5p=lzHpIMlo$:C<vY5ID1&KOPP;v242J:Z$1m9]Kw6X7SRouWH600dt8Ki
mOcZ7peQ]5;AFi;~]+[yy28*Zl]mfD.^~)V8yVhk>6e.H&f=0fS[oJ!SX:INRS4ap)JGNL2L*]t1jKxw)_Za*vdxUDO+3f2eT7S
2]q)sMZ6];.b7Zs(N$J]q0VKG6>+nckg|T*^ksDDj=CON8],wr%gJ<)n&fM9NwB7)Psq/<Y4Yl4^n~!9mTOWkj*Pb^TrAZzFPON
mBoRN0oE;!KSO;oH!upGsH[>><Z$9^Z=8N1m<]0KMJe9[y:P.2BSBWYH/:Fk0Q6N%pPY5$(J!E>4e^zs0R_:]CKD/8>/Q3gFM:N
wRMDCAfd|H_f4oNHNJa[7*wY^u;2.H41jkg)(gPy$xd2Ez)himac%Is63j2o1gje:!4UnM;RIXSg7g)!Yoa:o!ySJL2pW]i$U4|
bXShz*S&ICt53*GV373JsIiDXrHTVvL*p^surbrn/_5Gyf%z^zCv(J,E$$k8Kd!vmvdr.XbKvcRGh%>~ozlvJZBB$N(~wTuRC)[
ka;ojfD(v_K]>|w8.NqQl*?!L&khh8%jyF9xN:rvCmiPfsvP~~HkYtPbZM;LQe.<]HMv2:h1O88GeI^=x1At~io)_/zs*X$6|2C
gKMTP/x7QX.D2:=%_^,i(ydP4]aseWIzrj5EcvtnTN3(&uP38%n4yRAU&wO]IIAxRi,$,RjIqp+,xJN&iR6R&p~O>8d6ZpcD(^~
aAvii$CO:xw0F%HLruK;_7pVSM3IL<E0eT)(.c|kMciVh$qNnd9X6,sFuErJW5K7BB4^|Q6;W~q0^_=Ds=Ww+tTih:%K]ZU2!tk
Id9UaqGOEmdKy*yp,jT%1O05/V8IX[+pCM!?Z^sSgydN,R9T*c9HeQ%]g;ivxZm/%,=fXcT>X;F$cgJrf;F(kshxOm^&Ujsg!N?
*J19d37*?.QuG^,F?SE:(hT?c|L!)%SF_F+0R5VW2,$fZdK]G|p.S>mLSiUFfRLST6suz:V*r;Sd|N^_x1hc1Lw_UUev=9_u8kq
3*Qy$LXN5].uaLf(Ewey~gK+]g=C(G;<2%m&q8ZsV5.=%cckDBeLq<_6jJ2&LzT>Yy[QukSJ?8;kg6fZDxPt1%Qt9x3R$(CJRd7
PRH,onNuZmXZdRxNvIi.?A*qX2fK+C~mYrP[MF0]?yuEq)H<?258UYImz]6~n6NHw6*n&0tiu.T[L7K+3Cv=c6qAellaxDaS<fu
;*DIyvCDJJMC;y<tZ.GziBS*hdwmk3Wlc)GE3[)jTY7nGy<CN/n_yc^z>TZ&usIdqYRs]?jQ6+Zfh3E8RzIHpYk_=xe&[b~XO:%
=h;HBxbpMb[9TVWUX7~np*nnCkHU4~^68HXsT!74uKS6.!,asS]h=ssud$,G134]Ej0e,OP$sy_tHfN7/H=VEaDHmjec:v!wERe
eqv:4r$GGh:+.VAi+la]961G]E[hcB]oKA.~,Q69Wdh8MA9=Jkwi|rU>+<.bS^p|7jcqa>!*jvD5l]SLnZ*t:Ya3:8fR4sF$G)g
|Bcx75wTV,g5Lr+B|)aq7KbaC(Hr?+~zLPC9XKdN33/CO^LK%ZnW*2NVBYaeR3<OMoEQ.T.,ObIvZ&q8N/~|Xf[7t]GoIF|Ot|j
y|pJ=BNi4W!QhM_&IC(%?_PfK%)ZOSH!,<ib:aRt&~mO.>|e_2mKIHIGa.iB+Gn2X%z5qyUw_X*bD^qbnR/5f0J]Pt32MzVL4cT
b+nF|ABP7IrL;<[pHP7Bt>QgQCSaPR?vu3JEE$96S9oMFNxGJ$qT=E~n|)E*v|))QQp*l!=$^~RwcXC!YM84cRDsW*DQ;m.J08:
)UAP0B6/0$tZV2uy3=c[TShN,<$+LJ/h&Iw<o9z4VYSiDc75W2wRD0MJ[9O9!_gCSW[ycQKdMOnxe7qkRzZ8+[%s~0ECbZ(,.2E
HU|;c[![*?]m,i<+^..1<,FxKe9(UdIRw!ezhwqLHcwjK6YmN:1o?PO.qr_3W1=$V+U=YL&7^_jDt&hkr$=$|ooC/9e(G^!t6vd
;A1U/I(L(P8|F$!HZcxzK(/p=gJKWsX&|o4jMk?8]]We$p;%DC[>J:lo?MHsb[DSdGTCKYMRxxnOe.*n_O_,Ds7Y*XFdu<ZJ?K*
+^JW<THIB_wy~h,2C9!]G=rrfG_IGqW1bk[^/Sa=6+w^bd$e!&ScO_308R2>=6alx]=U~IX$Opx*G$<CO$+tNmX?emaX)(N44r^
Bmkw_xOj[U~Ze[8yqQvpj:o/&Fk;q_c),Y7[is]T&gh[4sfdAJf!Vy6FBK=?TQdh9,wJ*BQ[Qq],_[S:FsYbH9f7<HkaCeRe!8V
eOywdFDkFvvL9M+~G+aY>v_21>bRAu4uGXDcZ1,1V0*sC2<m(D)=kXY]T9j:hZn0Hkn+F2U+=w&Q+I6^ge*gtvsAJ%t2go(=Ax&
dOia/dWkWEFD9%jsQg*Z)btyO,bZL,sw9wG)Tw?ufBKeJ[8pp0=OL*O9qFgcx!F1v..i>AG&kk7/[0s06f;w7,,^FTzJzizQq*H
g0dEV*qE!qK6!Uqgoz<:m&F54.]=yB?:Jd|q&~OP^1Qvk%Q%eVf1Kojqhs[Z+k2qqh]b3$~kXw7fTUMviJIw=:kKmhJht1?kFo~
K$V$U!^PyewFMu!2~0wr[.9k%)azv^:bpPcS|48W5g^rx]R+7Qs(,KCHp20HPHMK%<>H3f0h?xn91pjMM]r&i|)<Y1gW~y5:!^%
4W>_4V1b6Nm7proBA!=t4n9$oQF*0f3.gkl^PGIcvp,|*oq,lJU6~Q3&9m:bR]I;js,oD(UI8K_^G=6|C6G5g>Rm5g5QOU6h+34
1?_NO0iF/U%T?ef87Qh^DT3RMSuofX2ME=Wq$t!GZ0]ZoaiEsgI0^&*87mOQ;:qOMUG,mKnR]HLc1%=Ad$(3xQBG]hx*AYa!O&o
;)fGKK?A^..vm:D<;.DkBhl)n*bR7A!z4fz!fgu9$1,~!>o,9gPZ7Fi^<*qb,S!jLrF&i,y?BzZw/BOLs;pW5RJB3z/*8~l*9D!
|QTz_m2Og+T9mX)8>=t=_W]Ny!s*Kj:6lvd5bNMFvm:V|um:~)H1v5+A,fXMSJHsbmmlU<F|PNa!Ko)E;v7U|c5BbgXAt,!Zfs]
6*TGF$]0NM9%FOw.C=G*(Tbz&[x*$Z|I)s&9beP.1!F<n0w)MhfOo7v]0*SEB<tnb3Cll9f58))A8>N9!66wBAkD4]]tg^ouX&C
x%l3eQtJ*t9:q.J=C+u9rjOefk%G%N!%x_L,P%ouV5X%^a3F]AaoTy7&N[T19qW=Hx,I_zIvlwyf?>22(5,We|K/vwt6^=.:KmK
!QrWe%%:B)ruS745LP?ZmVz5cxKlkka~3C)P0&G!M4E37(Lo%9S0$KjlAf[F.wY9H+<*;xbm(31T1<SPRDYE%i6DG5lgA=1Z0l*
O>^LB6npyIgVS>:tUo[W;7RUGyok81[lkG;|7qx=|QHe<2|q74QPpa[y]l?50^pg4qDL|c;:3Xctjqt0j.r]|1A9n%Rf_^h$5VY
]jEmGu5AyC!S$$[<G]y$jS1H3,M*,r5.]j^1czxIp_.(AN6F_7ng7Au%*nXR[z2qg*K<I=3SJjK:rR&ObVhWf%v/Fg$_pi*wHvC
qVGt7=803K[3(7(3<2L;q4ZwT2~Ja%+cZ<xeh$dk/ry$9~w7=(G8qN=N*DU&FJ9?adi<G9.aeb]7.Im)|*%q:g*T<>^M1xkfa3C
jAP2HmK4F=Gm|w?JY<OSf!dy,UYL.=Z!z_%1LL<]R%SwE,BY7MpDE]qaGjC/Ap2.)|,q(]9Pa[^,O+1q*+CT[IfV~5>ZQVZ!.vc
L~HWn8Ww$dblI94ieWe*y6391!3>><As(Sv>K>C|Ka;/Dhlh:xiX]dj_%Xj%SdC.0<|M<9uWg~qqmP2*p)69BYZuT.8~P|I!gUa
qSY]b!/)h%1p%U,Mu2DC~Y50AH:nDl~P*.3vJyDmI=IOg|GZ[pcs6Ju40ns$?5AN:r3>$~:V$Kc6v|l_AWuu]]GRq95RN+wE[PB
WH$%|N<w2bP$9cW0dT:>KlJIy+/Nd(,sy=ngxQmb~GZ7|[x!$TF|Qw)$pNmvLjz$2Er,_?jH_zkOe(X+iZ_^29>5)=_Exb0/zzJ
H/fT!PbHOH%Zum><,%Is:c!u;DO%J=MfvnBwM?0Pp]CZtlv)UXs~pd]jYFjD<XGLGZc5P3ee8bVt7kjUS)d,,Ik1p8R*[coyGGX
mmYRnht2E_iB]<C:P3o8PJ.H.,(4(rqDR7]v8MSQA!rN;Y=4BmNjZpY..yA],/GAxfL:P[P!Fj*=c<?v!t5=>vJ]RLAN+mG;8fA
T;Ch*qawGJD43^K8/:KZ8?u=(x8~5u)+/8>2*1S)1bI|:^Xd8gej.lPn;uzDY=da_k$7L3HAgVsZisYZlmc)~Yt>,~<~OTIGYr1
HuN])<>J,QtQz5W4^pUe*StI?v;KG$%wm]ml50?RJ:W7nlTFRbqQWO%:$r6dr$:>l&gXOcAQXUoLMd%5?y|+gQ0w)<F,OvX$Wx2
:vEaV^IB&sH4^Ne%1aXaI/46x*Vptofd*782D>5bV*y?.HnufCR!~R]&ilfu/c)cBAc_|!n%dSI653U(PG[P*iT&hZ~CqGFQYul
d9>y/F%dk>/sD[XnaIOCwe9W/;Q]+J/tCBcgID!80~OI_3nif4&j1&$m$,ExfuBsFRk$V/^YALE&%JP,GeJ$&gUMfr0xkabnL<=
fN]DSY8xJrV7W,Z3_8lJ7tvWDI/TSxJFp:&dP4bz]f.yU1W&HFvW8?Fbk^V1$1xf+|1/H!1Wa.xTwS|XZh<(I,Q[hL/l/HgOJ[4
S~~!HBPd85SZUU)ta9GN%_L7tV=CcBmusyDw+doqKVE9KLxs?)4EkuUG[TuJ3XiRGh%I88Q]T2858;74KW(8irDcLd)pWwgoZ&3
x&2X%kX6U8,Mq!T3pB(p:7gRIt|2uz5+KMShZ.jBVB:(3VrtB~nDe7)H&H3zDbNMy!*rOPQkoDqc=xEzToBbxS_|eUWyKu:)?d|
RQKE^i~stY;BcPY):._8hSQ?Ds;*<7/cr:yx&IK_2E/Ibx,y=~S*J)]5%pN.y$:wh.uT;:]/%)y3cYJz$jRKar<:H.%kZM|oWxd
q5|VC:F+?dqimxrYiN8O+%ZVGLqlk5[Iy<89vq:Ko=wpxP9l1v.wFm26*_o]j?Q1W0&n]OY;CvzCs_rDSwu3w76L:&P2R%k:BKN
p]Gr69WV$/d&Dz936V[52;hLT2Sz5WniIgco:%!8*p8W%x1&nFF_QBzb9zWY[cL,EfGp.uySf)g$&H&AkS[9:&/4;q8+Ct7IdyO
Sabo~02+)/i,bow7*[H*cBV]z:kksAX5+A$Ve4P/*b*I%5rr_qYPYL4Z(=QZy5YF%*.UL*3:D)pJ_~yZn5d5~IH~I%a:xT;t|HB
nSJm84qeVe(>=R.~VQ8LMi2=*X::;7&<01DI;9$Z];R~bW(hoO_]oLonwCt0S9mDCCXu&uU$BJ.,(q0a+5+3Sgv&Gc>Q=R&vC9%
_py)du(cF(;MS~R!p?1goPNgz940KEno4IYaDDAWCJ36&T$wkk2UTHSy.,,/13kKWAy(6?8V4HlRU5?>9%|,DOial7?VT!*pAE=
h9GiU0Pg]3!wUDX<txjkF=my=K2!kAOYqvjWuWg_=k&XYra1472PSDL$neI.%|z,GO+j2:vWsas9/_?f6B/ZXu]:h$r(2Jk+7o?
R/,aC2<6FKcWm|g6k+uQoz(wry^If*>dAerwldI4)PinKc$]VKZpupI4^7a?Sfird[?Q?;je;T~0%IQZGaQ1iOowk1QD,0foJ1J
zjUp0%84l2^,F6cN+AKT/5f:h>s!*!2~JGRrmGo=w1,jj<Lg.4B,QlJ1*QurxT7%t,F^Jf5t&tZGC*sDiAevOrzQxP]qd8Vcr1%
7u;s;$0_2lac[%rlx,VmHdrJA4mbj3jntJkGe/H<Qh/?eMbFL]Cg6KlvEL~wz[kYL[^Y]TQmRIGtuVK(nGQNgjN2SSL6A4qz(pT
HdI~tX%Dy]Ah[/t4%^WZ<g3dVlU=tpYj!nUQat74>Q7MXDVxPR2,Vtxb.&nJ1SgAKQwf<b+STfDRAR4*9,I~z.T?(5t<kTV>.NV
8~wg)oz,+,1N(]i2+o|5d=USi,Zex/Ks;rE395j%n%]nmn0M+n/Lq0|u)duk0pRG][4M)^uw_N2OM$*,ADu/vvU9DPOC(=Wdffs
|H*)tYh+$)7|T%jdHh*uy]DrN?n+dK[+Q5xEUKk/d8G;eGJ[G9fl>xkjBf_[cs~4/%ihZ,l[)d;Ne=+F=VH4JBn?X?^B0Ry9:*1
V)La=rRX]7~ii2$[xnCLO3^=6R(?u)FZbIz!^ZtJAN(K)R7s)q;Q|qvy:b_6SU3;RU7Fn$OKHwOVG4>O*,fESZ(ns=JXMO^?usR
T]fm&NdE;?.S1)^,H*7~8<jX$9C^f$Dxq^p77^QG$6yQn/y6if0=V/5vXKd0FZR=L6JqIlzm,lI*Zt7&MgTR=2Y//IbozoAE?bI
3|4ADR6A=Cy2myM.%tE7h88YOWDJ+SFZsBdke;/pk0M|5DO>176p8^Le>o3ycVxtB|nah,s]i1:REvr3f75cAo5B;y/xMUePRkd
ykf*+*40$3dvK<&Vx,nY32<v%rvF^VaX=c0cs]MUq)VoC)RG8z*OD5jJPLQ,Hr%ao3=iAQ]p0<AVW*H5^4iVKJT79b_GDFFzK_B
F!/GoJjX_Gb_4DE11SZ$Sq&j!zHfiMI,Sd4N+9?>Izk;.u$w|cIwW>f:>twe:x[MZUXsIRk6R6*|Ey!9>))$hN_lz[<VYJq%4~w
x$5S7:r)6=mDzuz&is7O/8=(M6v<;<ozpaEkb&w^dkuCQd~SBruL&$;Q<544AbTs>t$%B+48n!+aRSNnGM|d;fln0xK;S=9]p1G
Jz[XaKHiO|w|9X*_V=iT^]V]$H~^+;Vd,C|~GgFN~V?gf)8ywn1JL$J!73)rVv&wpi]38Jqey4Ryw+HYNwSVb=x8F3Q>%;tt32E
&qIJ?c1:dd^0h~H)^q+ir7wfjtAD&78tc[Y%+YTvNT(;h$h7)/ZNmq8;Ln_LBrjiUu?0GC9xD16R!8=p/C6Qhd9A?17c0TbLmbn
(xGW;jtK)pz8e41qw53^jG?<eo(l+$5lx0nHr2~&h]tXV:tst$OcVIJ,%PuI+|!,CqYI%j~ePH_2H^a9bJqkWyw_djFz0I6~7^R
4o4xfBS;>XCK=*U!dP8<A1[Ws9^qI5h&dpY]:1X~ENddQhb^<eOzBgiTDyrPm*;Ai0sM3qDJ;!)e?Vk&6|Rd?ihE[kzwOE&74*X
Fqd=yz^yAq$a_V~=^Kps>=KNya&[B(Ey)[]5ZY31AvlW*_y/|IWp.2s8&ExgFM8nV,Lt4U&=|)$m/7J4Np!TOrCTo&[X,xWD1x,
kcibttxr9PzQue2i;%RT8<]Q:dhevC+eoT;4;TN7_m8$S<nr*sQxWkn;KJjsD3MMNlI/7JF[snt/_1pUxzs~rC1.w(OMpuw>+wA
x=1:;4I^IGBZKd=)V]op6S3LL?ebx)3Wb^W_|^25O$O+*OPR4jb?+Gso)Hx<mNlOvq0Cq|.<j?FK/W<xte9I|<u5[z7YbOPA4.Y
DY,u2RoyOnwdGJ(xQ]3=JK4^60B<_F|tf,4R1m:ipr>YSRZU|M1K,L0(cuT_&k/8yE3HLi&jgzCxz,VA2z&eI?<:iQ(D4fkxnS2
OMFAxdKnflb(K*)xEDCqRB=m~E&_b9r94yPG:Pfh]<Pdg)p>TYIi)B2UfPQGCY$1./CjZ<s6I!>>FQrzO3y?MchP:;,1ScoWA?.
:wj=DSzIik.v<B(0t,!*O:D_5&Tp.w1aM6!<_ur_8u[.zk>tS8Y8]Sbo<gkU/37x5.9J]I&7n^>z!4,R7Wvv;e&!|!:y9=lZK?n
9MuTLEq,$ggx.az)Z^E$&/2$OyoN([xKyy^<&mmpQ8kN7U<TVYrEhvpLW<pE]R%,?vrtAkv29i?;o:=(/2Kkzvjd,guSRz3X.%V
MI5RjuA,p(&.>wgxzka43EONjzgP=1azc/smAp8TTzW~WI!YK(OtgQc&7iao~V?MHGo0A|mbTnP$PfKFKxQ6k3j%XMSPwS4QdE&
7=m)*+ti=Sto!v+_J6$EQ_GKwtrf)CI()WA(u2jqY[tJg/6&Q!Y/1_UVl|p4M9iKhsoO|c%dr_~En5nl;1Pbn0tTnJOL)W7(J+w
c?cRWGL68!U60UyG~dz9UneGqPq|SC<mqei9srks/q[x3uu.[.[)7_!3pzht<6.u5*/Vwevb^m~w63>P&/aUNN~[ZpRQD[KH$u(
pSiqJBa=JiB_FX:Y|ochW?vBC2:z^6W~Yx++Tzj9D7/;RX*^GS[m?RN:0Y9%BtrA>0DRTAYBcLg9_r$|A8afH2Wx17o$jPaNUQF
op2Uo,^=:!(u64N_,B0MRXq5ZB&g>9zyPT%p~?1Q,c>|mzSeU|Q1KHBrgXTr^,[r(Lg%Y[6.bZQR;VZPW+MyB3f;&2dIb0/8d89
]UBt5sa&Ya[iba02)Kq~6bNb_nJR*)H?4a.0FYe8_1:3o!.xr+OJ|IKGrK:dQj~iZ30w_UD])+R(d;v/YiYo8EgqLe<B[puW%Hs
&*uq.B[]DM18WwkfjxCW.DN+$3IvJ3zV+p*N=<C]>IRkbjUs8ZL)9Dz(,c<wVvC~Db&;JZDC8Kq8/6tW0<^v8AiHk(bC3O4%!YR
?;qvP3l(LKQH80OE*&fx?KfU3+*m_32teJt9yUf,XT5D9,GAyTtWmYd&SM<ab!j.TSWIrH4V<tQW1;_9VwXONn^)h!iEQ!NdN+o
q|yXiJk^jf!|r|clTLD)DUEH;9^:8OLyrCt,1Z=+n^[:T|;Ff^Z2X&_W&RqehD,2YxUo3yf:^UqiGnO+wVbwaYA_eWQKWHf)3x2
|n9<;FaWP)^/xiBMATOchwpiD[VLBy_^<B2FSVG3_._)l4RyPBQ][=R076RMW,<)VlL/n%^u4_ma!V4qWH3jhQw:2+*6vs;lBoq
Hs?FGd48P8%*3bkR3g2qz.[j4;9H=~EQ:McvT,xJFC:mG;OkyjH[b/9B?(0Ql/j~q<sSFtr^|8ET,rsWB^hTwAC_:^l.bQq;zW>
9X]uFOI[f;7BK2NZnKsxiOZx<4zHGP(cy$2%WhuZLQ~<h4Y&XJ1xX2_6BQ~m03jgkCei:=/y/$*Xt63R^6;GY5MHrg~/8,Mt.~_
q!Mx?mgx?:HG=uWLd0&mD7e2yOjG_&^*n]ZP;NohnSIY)E4_0~P:n/<$bez9&20.(wG/zhk3b]bu2ddNxI%/4<Pw)nDvDq_Wrm;
[Vj,(n:Ho47XQ[k0yRY5eIw?<,7/!SN^$WNV76?dPU*[7hQ4gbtm?PR?ql%fMdKk8ZxYrv]uun]w~_okXEZ~;x&F.xQU~>H,|xR
hxDy1jOIOu[s3*GR,;BQO9+TgZeWbA0+qc!e[|tUwUbNlX[WVlDTdGJuSAK$+Se3!R_>sD2dw9rt/AR&n$i:;zv)+hIGMPf~s)c
R=!gZ)V6Rd~3qmF3ue64Nm|bg?HX|k$~D%R_0F:K*^L(,mK7y%&G6V/BwT<WRZfO>C,ERkn~ZF[ExzRu[GefM)G=~92$;RIk6P1
O<>ZSjyHI7u79AV;io?x:>;rV~Hb)K;bTbxDGR>3A;n5>~2.wDqS8.wDB(5OtX+k9?[,lN5Vo0m9A.9iip:Cr4X4F5E;Mr4*,.t
4bn1d_Z5y&?Jz0q24Sy+uj_gqW8^1>V5:7_Kq;m9]Zi/?1GOo&lV,WM3[fz(:edk9Xq4Z.x;(=l<7w5ChlyI5Yp),Yt;7C&fE6m
$Ze4:~OL.kCuvy2[mEGYI[5RcU]ePstOAHKM/vzt5NR4&o4q&x$oNq!7GV&TKSlBaIsWYY.F1yOn$^ZN*O=00EIJBw]$&mfV6Jy
%ND^V.hh6_F~:gZU_~ddfL9&]z2d~LQ5,fjt;x^gAhvcYm%|4R86WX%Kn]wq8[ccdEX*XB;Cl4hoawB:>gbj1zl7;[8B|t%]h^3
9_WWj5X5Ec~C?,?bcf7HahGLEiI>?%K!WOXUlE(BaZcs0SWvU$e*;4a9TlSuRz*]4HO:orAIzAL*qPHqZDKut<!JDJZM_kgxn>U
&KP>VH/9:FR6!/JL>QQMyr;hF4//Fn9Va*uWg~e9PD+r2ZkY]8wLUMDe7z(37PZZ[LbRyrQmnunq>R6w%VEn+xMB,2&kbb~0~gd
:A/u%|7d:qQvHzV)4/m8IrolI:$gUaA$ynA$zlr_|BIG9m/alzQI7$D8LDi&nT!Rd__HJY&E*T)b[leu;sZPY9EeG*HJ1;mURr2
==uzLcDkZ%yhw)HvP?oTesfU~J3%^rV~DdnkX+^>$;$X9ZPuKk!rWM??Fjw~WDZu%SJ1bYBT2czq$|$VimP6Q~WPHx*SsR^3(5x
V+pN:Y55c)h/BM1E~nbZzohM*7f%WqhHj1%IQ0MtIy]?<)0F0y6ok],Obfo:fKY)&swMN8Q:W>G6jO1QB^+u<+s%lxya?z5H!^v
LL6Ta5%H6xW.l|W7YcS4g0;3IQy|bI*MR)nV!5,!Mw9.0H~Qilry3/yUNr0(myWa?rCPBvg(y%C?x:TgK!)WHn)XS+5|Ae?eV6n
QXoU8vS4pc2odk9g4cl!Ucc:+Yt2]ws+Ihu0Hr+k;IEo1<W(ndCj3cDe[AiF+<mN26^8:IOQ01Ib,<Xz4j2BazAjIA7iE8E=tw8
Q&r52AgH.z.OL64>/:.R7w|<5]J.Hg3u0Qh5|w91t<otDZ3AI<obN3b<,Lfo3eV&DzBy$gQf,zrlQ<VG4jK%Q2lnX6>!0v02F]y
5?ZbJE~4,s5&F;_.;lgy_|MPHv2Xtl=+$dT[qF/mVbS0Qa%Tr<9+17Ko!_xqavrNVn1_wdOQo?eM+)$JVyZaQTJ]665/zSVo.O/
o5q/C(nHuYg^H&hFerih0i*0oOH+_:EWprw)?I$d[d?r/Ec?+qcKi[z+^_g)m+&TZ,w6,2^|3yXtu]Xb:|W!QQ4.y&&MGK25HHE
h+bj_^7G?q308w3w,>AVy3Z+HQiXrU%5w,^?x=~j=_I.|8J*N%EG.ps4t%z;v!*1P<~vbC)z31WBvn;B^>2=CcS.4FEcV28MUC7
nu$|Z6eFuRYB|L5Z<oT(cPu2=V)Bz;opEV8EiSh!aZAB?;8!rMtgv>!x|0CB=BgPMFW%v^Z.ZSM5F1]&9mr8!G31mQpy:t?O0)2
+(7B<NMrZ?>TyM(o0d$K^O!]mGA9GYdN0><pB]u8<[+*_UUWP_u)G*1Wil|Laawh%?FrK,[ZU%5c=w(caOOZ*D3^6D&f87a8+&C
TkborAr3QP.l*?3~QO>,jB5sTdkM?_7;fMXZM]yC,]f4+&RoUE~L]ECNO2RIU;+^YKktfUI9;%R^=/^FcC$l<mH6K,>&=4aj&:6
%ncK?ge.%NF8TW|tT85&YiM|/qq4]q~9IbZ2yAN;u7L.RtE0M>$X(<<wO%at9LUfCun>zVx+kj[~GF1.Hoc|Rzc.p]Jr_P%r$hH
zZSltS]71P+Cr|Up5gf:=ip$4zw4m*?;RSJfkU6PxoQlznE_/^R9C5o<K3dESGk|LPtDP(u_pgO&keKUitH&fZuFXnlA%]Oht+|
g/a)eAJIsjs3BH*?V^78utP;e(RGn67fbd.qI$[.g(YOsJ+a%d!$(Jrn5:Zc~3i|:90bXG+:I/>mGb(nu^,0TI_*3HpU:ln=vlm
8h87/K8hWn)G+CtO0vz0TMAhxaX=e+RA|bdkB%:CClUwLjQ&;k:9/4+v%g&A!x%JZPmE2XMt|c0E>[37u;/f,V~%+vnjn[?J8M_
F6HLbV7aXuR4ld&ZnFQpIFO+P%7*Ta<cYp/t316[ed|SAn=PQj*7^ywTm!pcgBG:1XC%j|e0X$l6O,IO/4[Vl9WgcEJ3!F%JwzX
qfXkI=c99;5m$6.$lh$H5G~,A,P&(>tN%~L3pEEdB*i>fKK)y?b:rzgp|^OSq5/ZVI!WZLmsdO,GBA5)?Gr=5ocAP_jJC^C)]]k
f4AMLxWn>qg/QzM9xkW9eRG=r>5]<ddz=6nmZA;_2t8W5Y(,;q!V^Zmt:>p]Q.<0,,ugU|q7z>zrv65M86+l%I;wj)+/<N^|Dz]
sEVRi~|v0IZTkhu%MaED!o0B,<B]5W^s3E)Hf;aomtRb3m<xuQAst<1(|;>Ve~a2(]WGbMhW%mI9v]GV(STES4dW*a%=ch5S)BR
0BzzxEMPY_TnuA;*+FUj07sp,sU/$)Mg;0[,$VT6F0P5gTQk|.Hbx*5P^ixuLyU:YK9X,)3!ob.9^TP3>cdQI7APAmFglGD0ktp
PEDOZHSqG]Tbalm%9%R8*LCuybBlfqCk<x6*bjFZxG]iyP95H7)!Z80O=c+;?i:t)9<X]RxP;7zw,C/mE?f0u7[4V+;1VE;+uS+
W/0WAoohPL(1?bUSzkNAnH1LR5uwy3Gul0]^I%u.5BT|H6I!~:LnEe2C5Y3xMLGq_k0mvz)L0PO7WvvGLAJwkemZ&BC^[f9QeM4
x7x,QylO+tWyrrK:nRuiKKu/)XJVIce9R8kkO4*!rFaX%)7:)hgDcq4VodkPb3b,q[js[>uDxY&s~rMD6Bqs(k,jo&IW)t4$OHz
x^~+(fv~(iQw65p/4],Jk]sFmSB,9uj2ZWxE:11n9K44w*e.6?BdU[.tA/FFvu;6=xanb3)(LH:2U,gr)l5I8vx*uO]V34VRk1u
Yv,n]A<^O=Zx:eCDg?.329wt_pDzbY*A;$hx7>SlLUA4w(Z(Ua&DGF600pm^fj([wTlgl.)_d;m!9GS791XF7yiOzVEXf[;XwO9
gmnw+shrhB,q|CQJZ0aUQxuLOiKl7ou,+.*R^$yuRHq|efC&y|(wDYJRWgWP1^u3AFvfSHjUPjHt(kNo_O++;,r6vlw=?%xLb6[
o^?JHy|mQ]Vh]&OD4FArcq(s_Fs~FhBYNoY|[f[J0=&VxLiX3XwtpFtd:;kNDf[ojkRTJ0<Wm=Rg&YhTKO;yLJ1bAK7h(11?G&i
[8S(7fuN2eC,PRb[+N0x/0)T$yQI0:JRH%EJi9&r?Eyh)A.D9<y:cYo:anPAKLK^e>*|5_|z7dHl8whDmf,zLWnXmgw^2rp5c!n
(Tft!z1&qt;svZ~y07IW^(5(~G;xhBQC.yZ3WTm.6y_F(lhRD~QiBf)/ezJ_l2d3Js:VK1IPPH~vv6zOZ(ky8OjPb>Tbal:dXgf
F^Hbkq|Z9*bs9O[_.[)>Lw>zyNC6,<.+(yZUkA>A+Gw$;syTy)tQ.w00~U5vRH?yI*soZVfkAn[,>)xR1R/jazIMv%<_06KNkgu
!53l4ju2]WCwQr6(r>6J>9Jp~qAuyHmC[,hWF>EK;v38I)vgQ%$OSag65(*4BAf1J|P?=7?oByxDv%oB=c7y05T;lk[UbMG|X<p
<>.d0M.%kAMJ))F=8n<Ho13GQ_w4p1I(di+Q_RgE[X3t44YGm|,C(A$V_Xl2VdeY0K^K5|+pUEu2yXyaxqq_?|m,d;)h<uiCFky
)f:O=j>[?tr*LezILjsb5QE$sG)8)n*Wa|OiM/JvZd.c!bWWofO6Ad9Dpj(1|mv64Is2jLB4s*$Ie8|f*U.>_x|TW(9mgbZyR5_
M4>+OUTMFw6FoS(d;.QSBPoiS.ME_K1^kPF_Z=6[ku~bA^+uF^1PNxD8cMF_pi=YB0Y2Nu,G7x_NuWd:2$D+AqazO6[L4$2bUD/
,U:5wafSN^.kM>EWNkO$PkhXXr1=NlvM;xL~cMBSLN|iE/~j5;6O<,Qq8g0bkt;e<KTDA8vmW8]%nDH24*Q62WgeS!/Z)X;YMb%
[QtEHXdn41=p_bpDS^1$ygIR:ohAdG:)?,5J/OR]++%akf4Yq!ATkJ)3!~ECiUtg/m[wrkXn:CTjnv:_mAJftT/fg$4>:;>m$z~
:/N.1PB<kx|LSEXpWj)Tl)7.a?]SHB?1B?mK])P4flJ$F:F)=Tbp9o~p?0y^s;8L/&b^+ST8UH<:w80[6(7H(pJw++?VG|^$par
q%*FC)oBx$KbKD<e)()Na~Cd|7Tq!,?2>OI2&&SL5GUe&l5UfAFAvXOqD!|5lj?/X;Vm!6;^yj|dvh)/Nyeg6.yWI)~_vt>(nzG
YLA$4w0yvUCX)NOHNQe562i,_BFX(6oAsv,Oso>0!o5y~uF(PS78;19,DXw2~qvjGGb3A$&0IO4A*Ow&6O1uX|JfpTB1sfO]/s+
J8M!sgL>jVn.LL5fbH%+X38<AehRAY+Cm.uUFWrh8^c8i9ACsDJxb8:u^&$)+VlSyhsVdwd.*DG+AqViH4t=7FyTGI7Y>?K(&IP
CQ[SfA0hGL*Nh^~OAD,hIkC(~kX8M~/^,;iW~z5]Nhgk>l.o/wU|I5B/ldOG9M]5LM<We|nyml.4;^r[TcyLy0pw?SPlh;?<>!N
s=LlV_2tn5:<ql~s(7cK_%]NW)MDC/,q]dV~__3%=<JQdp?Yrgx88]|/Y3ZaVWgcO4E)y;^riqUkQ=4MrLe_y81e?<rg~fY3u:p
~dZ(G$Vm1]T*6yTrMK+swe!Z?ROFE4OpMCy]gwo<IYSP[htV*Btz[ixlV<(53/+3tJb2W6~*Lh;wj7:vrKTgUm7rlF)2vV^H)_6
9ZR&fiZe/PW;vtbM<?*.GpxQFotPKy]OM|thaADCe24]phCcJoUzf&eF(rDk6q2:[jmyE(aX~E.NU=iSj1^n8epQkU4R]3rb%5J
Wzk0=cW/,nCtRy_mf6)$&?R<_(%Q/dALFdMR6(ZQczQLTyRlOa%_as3K9j*E1$!?:3;PPZ]NqlS*5ey2vR;TQksYzkasq|08zms
>!$4A5ihmc%Yy%%bP|ZK]=39ZOFs4~6XXL<a5d1a2mcyJ01cG?<*Z^Q^lD^=0=)qTEwm/4(<anH!j2R7FRtQPacw$I[k4T=k;.<
iyD7wekWIjE1Mro8w]/5*fu(V+!bI>J,AXbZha)N[~]qq:TYIIxHOn7q+qLL.I:cWU]NnG6dv5c94jS_4XzfVnSNf_SR,dlgi9i
yud2223_HEB,L3[^>)UAT/?]IA$<I82)HH~;]$6U~!]oWa=e>fp92o+HdF<U6zs3oTJQTug7Ptm<)%+LXlxe1qBxxUPj+&^A!^8
aCK*DVf(5BIkgWJ(cI$z~7ntKd=L9HX.EEZKFG2]n+7~pY<Q16t[<myeko_%,jK>%^jru_9H?6oL>^y4FkQm+=zqP>AP%g(]$_L
M$Zac$6Humy:33JogTz*0^8]ApSr*.&)P7&S<hKTjHN:1c1gsrb4b3cRDLH5_Syg5tK_4Y3kavU/8Ee/RWlcTZRDy~s^KcKFijx
~p*aN>q..Vo(gd..D<I7030kA/Z/=,n.%yIn?1_7LWY<?==EQWCwL^Cyq:NxTTi|9sP6;)Ta?thTPV*Pp*RA1:SXX~Tu:XJ]ZDz
*t0&vVA%SJk!(4~nk*:U+nuBicJ^<JTi5sR>]f2*k]cvuiHusjR2XD?WUBMXaYIW/+$M6a91U?:xptDe!6WL=IvI|qEBtd_n:k<
7D~,n&9,ducVr/OCc!fQAQj*y^K3PW=p:NkB*kHwIK(CT.f^vs+<$t)iMv8F).?a%QGv,2k&(IY!NtO.NJH/kAX8pSzP&]HEm/r
w1Z;F94rEd?>j^[f]~Az~vm%BjN(!MTNutksoCU[DJU5C7CEt~xP(&iv]j1H)37%dY>sV~iLuLC_tb,QtRY,<z[Xiabrbb5|BB[
98PNfrX]S8eh3&Wt.*l)[SPC),C[k[yT~uJW4!BCV:eLc1Rr0Kw^dx2==OIIi]Yso|69W2mwR5!~85r!;kVg,G|QwE5_dpf>z.]
eYZe<wdNAbQ%CJW9;U_EJwgVGP!,zl.YX^bImuPnwClwbKm3uD,4NwAA8Z>%2^hdzQS0pmxh):ZHPm;P^1Josq4a7|4Pt;(]:9E
[A~qm|f|6K?[/Bv%d_VPuT]$90[[t<^(D(s=a~_|?WffJQb$tReKRFuYe8LW,^sO?O%SJrK$vp;tfY+kko:v>YBSK]]uqXk;;qN
zpWjl|p|L~8g|d|7FX_2]VHG*E+59sN|18kiA/(<XbXFB&7:Dudp>FGTrLd<r5L+Rf:NZ3$qkv3._SL=KY$+P:ztUO+1pY*ui|G
F;M7,En*/!q3T5$xRfC3CjF*5;qN^TKmU;jI7R&++8<uI)<dGp%nB]nYJ2%<Mvg%z1_8]M/wlml44yl8UmigTw+|/]&;*t=o:>]
zG(:T&:+dc(W;Uu.L*/&[<Ie2]<!TpAwzJw0Owr<GZo2&1ug6hVaq|]A:m(*.9S,|IKQp%3j=fwwlrX+Y;O[Ua<]|+Mucw.J%2O
_eugPf11x~DQZ<=tXtSphJJXhcFU60k2oY:_=i%(Z[?PTQdV~hKLoMN_Wvw1kGfE;WVK;OHf8z8jFq:LwHUTz/_z04ihho$v.My
0BM3Pun=3ImmJcil]oJw)=Jddev*wFHjJ?N%W91[96Dsz%ZS:>|~rqv?lcNJG%Gpo:+.1FA:B4gO9PWk0nbE&Et3M.Xl%Tix/9;
5V66ArtmyvkF1DWv9D*mN.IQ~0)$!N[yH^:S*U?7bgpz7rQBEO&:LVZfI?|oRE!Iq!PDOl9VGgF/b8FtIc%!lIgKI.OehAG_.fj
+8T]F10H2qtsQCd0Vm*w,.I?S.kEWy=~o=V+.rA/o7|u&Yfp,RKk&f+<JSUTCG4I9VmCVfu?ODv$$!NYjBz?Z<6cv2W3?<I9EYa
Ce=OdXWI1%<Vg~$mEkT!X;.5pZS6Y51LY=S&qXofkv(|F:/R:mivhcIbJ7d.tBrjO<[?.[dF,++y7!*]El[PuMi48OR+UlzMMjP
e~*6=/($z>GmnNADHGQpv8tg/E$I0^y^X(H,f!z8C?/441hX:r,_zj<mLndb_Jx:nW=(7wRggt(,2yuH?93e<I^SP%Thux*0N&l
wyDdihwPOeDk&Yd0J4*;CjGYRQH.wqL77VbBl*gt_u$HLpUgA[%(~A<!*3Qjm<sh($AVP?KEc:~(nL^O6G4aC[J0m$(gnAeQRow
20l6ctN72_/*3BFeMIC>+rnRmA,T_FxbyHoE/Zf=*?amDT62aTbCVq,0+XiXNj%uEy=/Gd6x.$7DX_(mF]lK[i/okri5wX>2kb6
0:GH&n4DDn?FiGh5T9b.q8OipL<=J,df<f%7O*|?EksUAl*Qcg~YoHG^$)+Q$bG0FtKv=%*]Uq/~A|BcZ.RA:m&:L.MRFl,r=_6
m28E>H=!67gc9aV:af;n+ff1ZcbFJV_NR950s~QcL?eaT0CV2++Fe.<Fkk(kL<Me5U;MXv_jc8>B[;Y!!O88Sp[fD1P.w+3<p<8
gf!RcAp&l2s_0iJpjR1hNf/rjluaCcFCoP[Vg+r~mGMvMkw|5Z*i7H;S:jZI10v2]>*X&B%aRnGP&e;Sa1?OVoUv(%MQG<lj8S]
aZp5_jP|Dc]h.F&zVB61~Wekq:!=nk[v96s4Pa$&D*l6)ow(e&v2Giy8d.l:c%8jSm28.SaPf%x!kIn;ktus95<I[8dMYjL2Z:&
?_EK=kVgnN&4hNw+l54:2$+]u<eT,+[w.s*F<u:Qqc_)]n;Fcwv4]]g=ySR(Luq|kNm%VTrO_O>x|MyW<+amhV2ec:o52WBJ!9p
^sBkGX$9vDZD8d>ccZW:nd/Q+Z3+|N^H[<m<,m)M;NZvtjpV!%Ig9^)ar<*x,kfXWzJX$4pqO=,)_oRw6UXwWbfmWUPR$4sItUl
.hx985wX|.q;4NrQJ)6y<wK^HVoKgbo3H/[AN,2m7H%Bbg0EEj!r[K%K~r!92o]Xg>KDnTB1hC5A).hKOy~FCTKtNS!5,YTCqNN
N/XyjELr7^6nvTwaA**jL,aN$?8M&|IGrQi,8F%;9d*h!HBVHb?u:jNok4WD9uD9r0zgv.^*Xi/&t=iz^]AbVk?0o>A?IzohO%8
0&+t7].TPvRVC;w:P2Enr*iLj;u>N)0ltAc%fwH<CdNLtnv&v4zRqJ:7**!G8IMC15:G%AxW;<oB]rKGLc;)a[2)&EVSJn$pb$k
lK<Cq=Mgdr(eJx+A)ol&QjGu8z>0bIuF.><^*qnUhXmHi;;&?&Qm.D3p~Yx<>6&Zz>5YT$C3iIUz(r%eH2:Tep6TEBD73tXnt~m
p8hAo[~bt;z(O1(Tl>!cD%!d8m:4X1[oGGAyx^(rH0Ax^c!l>Mb.P%iSYobC.F|lsj[TwD^H2)moTmvStgO;U^~[1HrLLsP~XpW
)^T3VzBFwfdlwB4|:5J/FB?<0)ghgd<S,j51G6&%1]>4S(UDVce^eKRE7W;n2<]Fah(GW%HKNsAz<&CeuOG<W2tkldfLvBM^MVA
J;7MH6[X.H2hNmZkXe*Eo?^F8?es3nkMOW4Lyy_NQeCW$0B3DU|duG,/wDT/xxxNb7.+Y&FTZkIk95c|3[;ZGZ/UWr86PcVb:Hv
xwmjQB3zp/1MxJB1G;msv2bxmsGJYNZ$kpInZ<*V~V>zQ$<=t1Iv0:i>OY)MVc0d<qwic7340|EHY.;eUx0%f3AZ<0S=y/A>ce:
:Xq(*^K&.1kPQpPh>q]S,*2p7Bz!tQx^Ruj)ld?$bMh>Gl:+V|**1ggMX.+>XrOBo8:kQ5a7H9%z(hgu>IWS(;aF)w.d%85v>?z
wc;qv!jjWcI59<s][5RJX7Bowm5Ko8(<op!X>q,t!2%R74,z.:ikf<FV&d)vca=qVxPF1*f*Xq^6.,yI5PdHND|N3xnw3Cb>:/l
y7vxsk1PhZ6JT;w91:%>&osJ]S9IqV^v)2/smr)[+T)$ADsel:sIQQ3XO;i49Q<(zhTAkC4NN64^HiiIoI11SC_9i*FfHuNdF[v
$2;o50D]X)WoNdUR_,pp+gC_SjW1QGizn_TT0$+wwFdF$Ls^X6!9x0x%O<24?A=+XGODc+$!)Q0^EO8LX%r=r8p[z+1xftj<AFW
X9UH+GS0M:LOTH3!=QLa^CK)YB6/yHP1Pn0K^kbD0QO6ZTRgxK+h^>Uq~OxI(=2xv0>W8NAXXt:,~|yAmxj+(Xq?kfPMlF+T|:H
rPEL)r.,0>z$g]Ai=SuW)1)XWn=,.U!NqRq8LOr36p|p8s=;:nuHc,[TGl&!.*./~GP,6Iq+NK2TihDUKF!KjlN&j!^AoO9.hAa
;Crg|USswK5RPhUk0xIE;ufe5*N5PO/8lI^4X*jcRl0bPyLunOWUzn*W:_e(fG&eQ/2CxE]HZRUoT&4[;1(!?!FAs7peIEFc2,4
Vb~1;d<ik,4I>S19%Jx$QNfPn:b/kmlcm9[OP*I[m]o7;U_hbX;tPo?hy1!:5d~!jJ%MErflNg=IhaKFrSyC,Zk~OFbU2J|SF+t
LQ*aHZUdvOxA?^$+Sg2y1~m%Nvw&$4T^kRV,GaIg/ZjH&9VIvn+bWn|d^v0,P:?~n&6A_%ukG,kIH*JiAaCGzh]a6/Yt7VN2oti
u0.2k44<+Le30/jzrcS>:AlGVsFEg;0iaQ_PO_SZY<vuFdzCGrkxlz+3se[oM+3kv!Q$R?znR36j6I)/kTi(.R]gI80&4dV?J+*
pHCuwK1wlAI^DZwXi*i[1+SpKc0JdA^]5+.Tcj0iZLQcp7Ih,;.Wt/z:*cr3Bo7cI61jc~r2LSC.$ONB]E5(mr/M/~kC1ahYPaQ
CxT+]4C*&(4.=7;JOE7oMoPeFfZ6Opoy5U7?SP7n>ZWgzomeD~IN_w_NdF)AE!L?l9!Es]GH=aU:IMQ4_M]Ea*hOFb[/JU|wn>K
321o0bl$SQEDD&r&*t(kk0)|.[PNiEgNsAqMR;o3!~7$NyXBbA^|cvqfNpayY?J3tbfD;!GcEs_YKOAcCy?U,/FZHhdIrC2&+<B
_7jAabyJZTC|tUlZni;=cD1q4~F9j0KpkzqFBWAHFbd,%<[!sh:pA/RH?1+3Etu_y$ryi>GP(~!vA!FwV6]CT%j/zp%Mg,mFJm_
00Q6un0,gO482_tQGeM>g&*N;0B^|/([spZwp!CvWYQy9)io!B)m3LLp;MO(&ZIK1]<X!N8nEGPB<Q,Jd;.d[t,[0P8KL!O:jqj
X$mXg&Xg(=U%%=Fm2inkBydK~Vj4IrGgzq9bj?b3:n~xLVc$eGf1u2b</0_eI|[Nu>%Z30V[!%~A~v54al8JKF=Q?T3puU2MAC.
/MxT)TwlylSFJKjBA+aG,T^K7|x9^viNe8/BN)*fS.A~|GW(w~)8UdjB?R3U/z_42nimWjsOw^MLZ:)9k/P+!RZYxS$:nR[q/09
MUrhrYuwRUKD8ue+k_V(kAC$MzVghCjJC95wemK$/X8_S2k0V*XHZP(HW|_|YGvX:!oX8.jK9+Po.q4p6nZ0^~l(ONNXlLadFSp
(9uvH8g)BwjXTjApd(rWFhXwzcpUlu.uoU*,h2?H!=dC=p<2^l|E.K6|7]V,2tL~=^PMkx_SN[U^7$.25/HE?Od1U+Z?w(2lP|L
BYTCTX>CH%uLqcfD1/zj<rCSNAD3X>4urq+:Dg6]3n8NJpi4xX5KQzcDWO798o1UuHy|3/T(<4GmMoZ4AY0P]jqzBk|]]Q$~2Ap
XRmXN|T*%;VHN>%pwO!3N?yhJVTc!z7.kBsDg7]<y2r/?U+&3UH&4jXUs!2nqf!q4ytZ=oV+>rL;5&+Qjtu*$*LdN+V=QeRJ|wX
tPl=jLTN*DS&6Tv4BaOVw0~]gM5jkDDQ]:$tZjEXzZ1rx<*U;Am=e1GJbZHwx.ZoDR,Fj&%6t+g/(QqBd)AgjM;gt?J4mN~tjNV
:Phmjd.)<Bk!_,]K/;n^d:5$/NUJ$s;d;Ngp<W*Q1=T_dUMK|V>tPB:+7.6I=VP;^1Ckia!M$MbA1<:5XxP%bTPRk5w8HBXadQ[
lz(.g)k$!7kqJzoT?L485PMl|YANr^A5?ZvtGS.1+u7xmcqfuM4ABg:|>PFGr.MrjRYp3%e?tuaOTHy1JPk$s!(XQXM2>Kf/B)C
1hL;YgqRjd6?Sd4Q3gAme=;ddiP6LnJTvU9uuCKJm8woWg0>^.l*14lWAeMt0[Mj%4fq$ahuks>zov(vpi7~i5+8=JU>JuK/6wv
ms$V+s.+7DWn>4r=xcq8=4HtFMBEB6l)hjy:6Dl+gF[VkDC.CPP9+x1~K:R;/J,ZWfF*_t71:zzopP1<=zy8XZ_p_L$q=)(3t2!
d!=V,[U9OV|YG^NXj/ypm|QRQaA<sO~*UMe[mnOR$u3|*0=Yty&|q29[4Hgr/p<T]OLwZ&o>FH_Q^L?t&HECGiLd0q:T%i?hlj4
v.:yQ7zu%8YSc!i?I^/50|./ETcZjSCzi7Bf2Qzs60<_;UonxOlK3r|E3lMzwn;NdmviQ2$WHDqF|bzu85_W+AWQ*+5Ki|IWKUq
K<E:/!y3Frq*tGhyjm4d1>AsVJ0ZgaYXQ7~UB]C6BL=&hi=G[b|N<YsK:cx*CIE|40yoh[)~!$W?FmgFVT$]9]0htZBSZ=AEand
8HN8uK;[c!d[nsrjPDnRk|1t^ri>=Rw5b8>R|(Yn8~:JNw:s;VNY&<^(>.iQ.Pr*DY~=27PP4eFD~CQ=F^Bv2(vkhPAgVKQ&pe;
(w6bnLg~+3p.1/=AwC;&G^bq.A|/w(81QWKLTl<W<P<sX,9[_b2gfsPMumr$C+_po[AvOJkd1JJFwbzI<VJr&x;|[)mUKeAt%a,
q58OORch[]B5eOszhbkPQInZ,u75e:d]+.Q]U<rs/tR7yFM,1Ey~Cbh=EHZ7vs.gbyZEq6y22JB<*JJ),wv4zVi_I1DZYa1rC$c
L&s7,,jmJ6Og5Y~8fBdb$iaj6Ik!x>ZYDI35Kr5?5<~A,I4iz4wz_eFj>R,PiFSSRoBC+.hLrNx.(m7d2APC/>;wetb2*nTD!Vi
kT9=p:tY+TTjgL_T?UPg*IK3psRSG)rFHdR(_&~~ChaHjwzt;p5L8:YTN.>gJVtnGcxyZgIY]O~tV_3WgY)jh+?lHpkS,Hzbd^Y
JIM0;.f4N;fFnuDSB9|8EKBuak9H|~(/7QHAqW?v?55B,$($zw8;j<I!PMzDvWvdc[]SLI(4BW_JEa^5_$uLd/~noP5(^qxu0=+
[n&%=7&~;kb$R<>*LTH~(%u(XQ[83ASA6jTpeF$~fb&Wz%75sBIYw1&fE)9s%^?9F:>7v!vJmwOS9R1CRi529=!^7g](YH+]3YP
^[z7p$BB&!tHaR(NaBR4nqcdH??4Rwj>iM]v,;.p(J4?o0wr<(q!mQ3Ybu.H~C)~*h+FMm!55r4g|pErJo]Il7Q;$0<yHs>4jER
~WiZ<0w^T7w26^M6jgON<Cer^_W+|pQ!bHpj^H5pY?Oy>a]Hf(K!P|u(d?,7Sa_[9akvJ:KDW$V</jkJR<p0J_GXJ7OM&)Upm$n
vLzvIoSCVlLL^yT6>!h%%1SCmkC$8oQ2)gK%;a^&PQ<6vKYJkN?9Y8=;|H:hsi_FHUQgDgda0!Eh9J:o,is%IdQo7HT|9mQQODf
Ep0(?&WJxX,q,WYZ[a]=_flMV43zeRkzZ?P(+IAKQO,vzX.sxj<qG;Ok[nbjDJ$ICiz!low9o3cd9_Z1bXJZBUe!kA(ip?:am$H
ul:6Efhi8gQs;UVx:+0J0pSxstSA|Q1UwgbQJ3;DE>M1Pu4M0.piuF6~s|*5jpg7SPF8/4J5g;,fAtdK0*:p:tWQLr6hnpq+kgt
ewrx9>%?+PR7>g^eJF1myfLJ!3n[[o7&3UlJ//kj[!>aOKYEkLo%ey6eyjf0EAXw>pfE4|Rp2]2x68qq9SN>C?I+V0^|Qr3R1tS
_qZ/jxi*t=U!DAhMl]*!HTPRpODvd]i[A3/UkBLg<Hr(o+/1md+G,aic;ZJ&ciT0)P;yN4~]::seV0g(61d|!1dF?erh^VQA6?u
Lf]=?sA_7=R]O5YVL,9[8Q=]P8TgJCU,+)XQIB7R4,ZE_.<d^H6Rlh(>)*KnDR4BZhQ6JS6+=%d)h&Eu?=QhEmFyq3iBp5ya0sG
trCSfsAB/K^e7VV8nL8?o?/_Q1dnkcA^V7(k9IJ:gj~e(o6c6hL%GRXKTwoE/rcAao:b)w<^=bT8c=yD.X(S,?t2D&)Q1Ua)Yvr
kRl!rj/hp:UG[wdS),IiX4.wMq*LESGV!%8ja:||Zm;2zD?N0lBIQknc~TpBx+y;|EE,9V.dYv_YnEtyq.n77zlBLCaa4b7f*/+
~5Xty=e1k_a47z3Kq!6W2h.japrXWXQhaJE%*f!,CKkYu%Y0NF%bfjx92aj:mqMM!S~+=(AnB|h(hPiw4d=PN(po^cbUF(fzToq
ei|L*u&]>o0Ukr<:lPP9uuu.K]]QFX/T)aYaPKKf+bLa3M<C6^hVa=C8h%F.r7FJMRcywkOfRYQo~w5sE?hq4vhvyAn(8/K(tr6
O0M^o;WJ>a3.rkL;Y6A28/<!F=dt&^)v,pKl[PDeER;m;X+WVukTm2)2v?ufXaJC4~c]7/u8GXPTUpKW6E/n9pyl&IKhEtz~+kI
SAzsGIwq|f.F/9D:v]T8b~*RM!RE8$Ft((WJg1XWRp25B=ZroW8Tq;Fkwp>ff_U=E%5yC7_]fz%w~fY!Fl)M!$WRl$4ya9w&!/e
)rX)Aw:A;9KkX&VoF(rLz3QdGM?1rQame*zIq>YDuyUz:ShpkXnrGHZyLBppjwqWBG|seyM2dA7NI|m7JT1)/LdqQ:V5qFt,hpl
cY<<hM(OtIXqPGhFQoA;;MaX<gcmI7R.uUYu9.1.XSRj)QUq:T%ldQX7SA.D31]yIN3E6vHFP^WgdoY:cdAZGcFadHOe[)VEncu
7<Eq*mrh5knS/TvP=N.j86*aG)Rn%M|*0oic1D&%t4|n6/0glXUCs~H,h&k7tkRgq73h8c;DA=[dd1LbV%|wmv5OfHfm)ofCp2h
Z0*ARa&?Lr[KP*3_(dptoHLV%,zSW:xuuaX5_/E9mpX/mMPO|dmJG(_pDpwT;&zh2EL/L)ku9KwgAgP33[%*M8P5i=/45R?J&oo
^d!hQcqGse>/Pp7I)PAE]]]+;xDn2U[%h8$$73CSGe8Rsh|[EYS^DaIR)Q45qzh<=y|;^;OSd4bd>xQV2ImsCYrv%RrFl=fGRB|
f>R0)7]/3sg~b3c(:8P_)V=>x!qztRc6aoIzb=+:.=PhgOFG+)p%Q9A!Ud[:CfPZ<+vbf)D)(lNR=o<dY[OFygA:$3fZY&[R^:*
Sb2;7JIoA0[>H>?G,w:9J?j%NDrZQgc=q$_,OdUX*..Z,_~l3,K].K5Ce~jemaHl]Q9bK/!iIrr+Z+NK)c!DYxTHYdFBsoa_wo[
vxOM++$uk]_a,RtQsDK1h_1f.nsAD:ZP]:vUc;hD_%nyrZuvF|uM;tSp>BIl>!Rt08<_Tp;X4U[s|M(a;NO]xFM/(E0!j:*?(+|
I7tIoysI>e1^y=:E]Uo$vkkioe*mW!b~/Q6~%uKMEM/igMkO[pIVrp+B9EWuQ3PUU/Yo_jE0w=n5fr~]*z%W127^9qD_2KmHko2
.N4yo9%4QTr^s_*Zh%:fzi0N?hgl*<tFp+[&KETHgiQN$qd1omHP?C!gSoYW=V13_gKWV.2YR.cjFZ>$mX&Q9l23Ii>C:t>>Yb%
pPg;_sl3[|EOO$w.P3x0h<>8~f^Qc?j[;[qN|%d~%3;/z3[X=)XrZuNayVe&~:ng0uCcb+AI7Atba2r/abSi[Jzepkyf<1R^q0i
%v|]b=6t7mv[cmb]ax4K3|0,xR[*h[_kV~jg.rp/io%[:t,6~h!2>71+IAmdOzsHk=?YYgf3E&+bH=8jOm=+IntY=m]m:kzdM$l
lhqq[PtXj[kH?Jd[>ia3m71Y>(lBY43H/PIbl_[(yt_/GaYQOM6]l?AKq(L80+E+R>/<tZPQH%^WGw[idAHyj_bFJVNj6T!~Kl7
.2vI;[IY<V2B7f;^vLC)Y*7F]F|m^Nd+x?4^e0Z*D_L%o;?|9toy)D04TVZz[)qn;wQJ7CK4OjVe<uxt:F&3]ps!4jbbk1gn./;
qZfccXitmmis6.t_pz,JOCrgA1x]5s_I>%zjGh3A*K5PJS/;5fS0d3NT6POLR]8<LMNn*JhZspgj4=3]W9LXW)M>oUX/<U~1):_
EQ,X^|Uc,w$&fT&_.IUCyF(n!xuEov_^uEkjE2QI/iq)Oumh]Fap]8cR1_h&wPkT;lN]/ie;o|w~iJi%Q9oC&Cmjc8tlE^rxrOV
*!?S[taXZlOuGmJzFugM=MN^zHTXx)F.Buv62av(+fxE8%K1m,W:b0QgI/>Bjhul[9>0RQoqRl?C=JKdSx/AtU(i>XI+)G/MY,j
wvO6)F0nDc+kC&O2p,phWrAq+a=VjU$Bcmf]>k[ULTkV5AQ|pW*_I4i(_(]/?(oLABWuA_]3rwBDh3eOk!!xC(&A(RwIulet1Zq
fLdq%TLwY74N:=|$Hp(n8^z7!LxLNAQ29$Rfqh4XG=MOMi~3uiD$jlAHns5j7,pQk^3|Yc,)6rbe_,&I=oyF!eR_1Ye[qsaQC.>
si=YhcmNY.d?J9dgFZGZ?FEuZ7~6v|wbM+%fCesig6H(UqUQ6anOuVGlffSO*xB~X/p6AZ.EH$.ot$|;>Y1P7uv:/!~i4]x&bjX
b5=zh=y2(?|~xA$|*4d<!T*iTWiS(R(0t<r7g_[aFC:8dsvy!|ipO^r&%$uu&R](05FuTw&9s5ar3]awkB.nx9NUzkp[TZwhh?Y
SVy194LWoEK+WBCmp]D|uBcXS..^mm4ZO+BkTY+[MxI9mb;Rg%VP$wq[w,T1YS*i</[M:<1z7SV%Ni|LObhGNq,dAdCNc|gPp.]
UDY|RefL<6)LtBpMDgtYi<L7Cn*aYI$n1<p&%=hXXBrAc[ICZ~A7Y7rG6L)6/%(lyZ,)PXX/y8Ywb;!1:nM/c_i]uL*CdL4jRKL
9]u&NQC5HFWe6xfhs=9NX5~=>/_~ur;QqeTSN2+:WL>xyB[+PIGh]SWi<m~SE>()V=V]!,<>+F05jWi6rMCe)De$NLqDt8gC=A;
yl2Me(sW$jZ~>rin&k=3a17c8yOIf=pl++fIf?Obj)(T$o>+i?x+EiLiKOpA53%zd*^b*(,X0Rq83gP&zs>Qt),V%2Qv,0Wj,1>
zLT7b<B$XQS>[r/(D.P&_V7h?v2,EzX&*sS$;8>wUn8CI3J>Ue:/:kXq)ZpD8&N<n%g9gAG,rE;d=VXW2[~0M%ie/*7Pi$Q9zK9
(cC,n8k5.l8cY%6nh3nzbl?~y/4|)|^P;AHWCavE3YVcx9mD5]7N&!4F*aH>rLB(z9>6/qFh_]_2F:]T=$fpwKc>_K.3D/V.ffQ
$2XD$wsp5/Bbx!PrC<Tww/n_bRNmAS:,S!flL|nhKJrIPMbSp_4T8c_Up_h/JCPQmyru3tn;,?X5k+ZNBV40w.b,!/OX,A(Yy/z
^<JM?$>yd[4?%?aMgFAops)wF9!cKdqK=zTSixY8UPf75y(hV:yB5.[Z.Vy1D*.9]i*_/m%DKTBXT6sYi(LJV/2.ZMWxqsyBd.h
u5hagj;+(xIwPcGA=n^V7)?!5:f9adBN,|fZLQ8hUqsHSYePuDM)<)tCtCxL3*L5+r^JNLu)v:?)9e_1r4C$Un[L!~Fw/]V.%OA
L1+l=8?97Uwug+DrgqHk)mef+jofQbfWs&J1NgsYqPT&272Eg2JW>K4?BZYVgy/ymKWx?[fro/2NjIC1caz/WoEr0~UN=iu;JmD
W!X_8eyIavR^o$rYhY4pE,3=6*8uW;k_;*mc1Rxftr&aMJqXb3;3VQ(A65FE;d8MbMY<SRQ4/jOFAhI^s.p??!iMuA/tp:!kevC
J!ONaf_)ulDrmRbeeJ*5qZK,KR$4?iDz^)!]2;%KFI<bkNH=MiKCO/48.*UTc~?JC(9tqfJejgJ_FYc<~P.&dE4cYQfWr!Jpc^:
8[OlU.4)M5/tNA$3&=Rzdox(lI(Omb9>S*rS(K7)0HXKbs.nK*TZ|1JC+[zFF6FucuR1p+&SqvB(4wTr9+sMjeL)Zuc1j*Mh_C+
w6:a1LiDbmlxQ:(K4A~?p,(2CaHWcP)o|!cZNd+$wP)m9QKGQ?3RZ$J1wiT|Pn0MQ.F&c:^aAwMNWG*~InRVu8DDhUgE8=7vW^n
zp;Vqx*ba<9d/wws]&zto.8GMJE^,ec%]9eNw(]?zKyo(9z)jDd4FmkS/wsvyn|9rc?Bz5f~7I+_(NWzSj4:PJA:dDS/ygVO$lH
0S?[U6EOmVmnqaGp5ROLvY>R6~&tLxE,enj+]db_;FfS69b$Oz1kB0JZ2)b_x$Z2[*tpHd<tSD[,,iKWJGGEB0HWnxJw~9Yy+gu
ODcw41e,N]Tm]DhTTd8|7b3k^Ibf2giPiGhHo)nE8S?SP?$.zQca[3bb|wUE5bo&MFki[n1G]NT+r71=j%)2[1!<:<WZCP]=Nw5
KC935_Meg,QPyJ^$uC9~Z3JWofL:Qy.KUBeGcoT/_u|/[e[^M+3ibJJ$qzn:6^*CpAIg8lU$W^gw2OJ:6/8znaypLGb.(J.Kf(d
Zk!W<TtBkBSzf)X[/k|.5~j>,g!RBcpGt];u0_?rDEj=*9%O=f=,bYy?+.29kyc=JyD9d+D_K/fE+sNeBOd12V2jGexe(*tBsD;
+Ierr:TPFRMJa^qG4bN^^N=QKysdGPr.Jtz[n3ZKy*NBlayTYOSW^eM+7;TLSZV1(IJ+wNuRW]i,jmmTi(qZvH<oMPC<=&6oEgQ
:EqsldVFgyyM:]|*x><>$onAnh,X&&JajYddB67=UbYimW?~wW*nVdUT;jy!e3C]sDc<;b9xBTpgQpE?dOVu>wujvEAo4WJg3^!
>eK_YZjKQU|1S+yCdb2qWtf%r&cp%t0^IJR_r>~07&[)D$;9K;lH)rA7rupwiGVA5QhQ*]9^k>g)!nFX|u(i+/F/fTX(0+RQXg3
KVD?_cFxCk+tyh^0HO43+OOi.OyoI:/hIm.oy^rt~,1rBAz0&eR[X+[&S%5[az3Uu.x.n821wfoj&;]~pp7OxH]I3^C>(T,LQ,7
.5YYaYGfR>YDpp/<~oE4Z!:ymJk<[.+GVv<u,UHHwvBhGli!X%Yq~geFQ*NXR<0i:?ziN&xXuE2Ryph31q&c/%P0qDK5>1DeGO.
d!t?JeY%my*vb,iZBpOw8pR6SMcsjL~|2RVcv(s]ooi]:_:=kGQoSWZG_XUtbJ(iJvCLJ!/F>*SLbX/Gv*+Ug,rB6mmb8Wv8/FD
jOB+=r.+NixNGl6ZQL,~P60Z!d118C!HbJYcR^/]<[rtRlhj7Up>h:$_?u1fj]&E$~^;Mjklo~;|F5N=Q8g:LE;E,_U=RR]l09m
VR1X5|LKor]6gVu.u[E5_?oHl<!KPcxeIBrr:iM&aNQ_QpDbGIq;rG(>1+lyw|~_P5VXGt%PBLRTMqg*MMi%jyLs72K(NGhXH3g
2oI)IaxwMxAz2J!)]/tL;3sR_!U:uF2A0R|)st.5;GF<o5g)uKNiV^T+Ks;Etw[YHV;z(MDEB^XOIeN6l+aOq<+6!TGkr=*rz/P
Y]HQU*jWLUy=61lHq=oXT5[VIIJTyHah[+D$(tW0RB9$xSadm(U+;Bq/a,bjSF[GtvUe1V|HnG5R8x]C[39WqXvv:PJG?JjXHV%
Isaw&eKfM8xqy9Yp,_nLqo%Bjd1G0[~FNR4&7]RqB1kjTbS2,=oSE.[x7X3X=6mI)w%YRx04XLPJEzxPLpUs.Cm_k0L])avey8_
%lAOw?e,Qp6HWOU?Y2n1mQ?j;a2N:;BQxOag1B7d~~lH6BOnCSvUe(,lXx$^Zt42l:Myq5Q2oBr.aD1E$1f8jKhK2~oNuU6OZ0.
dq]mKQ)$OiG]/a9kQBCR!/.fwH.+8k^7kp/n!QT><e+|TduR%w9v_lL(w7hMwS6fksB^[F*D!V%,!74jT+$%XhyP;Ra>G(34+r=
??a72:)cs~%~u71Xp_rp&A05:eH67ZYd!qMV_l]&IswkY<iU?tIi.!%n.rD(=vZgz8$EH[l;pt*flP[(aMvp+!em!sDz9pP!Aot
j5o.3WyTecaWBXppxTFbyDX!I0kvi^<4:9580ZP2LgM$!oea4>iry|RxfO8icI1[~94^u_VSoz||RX&Zk*^yi|bmoB5Bm/lqK/x
tRNh~<:3lVTIAe_7=ZVLeuf%vC~pl&OMv5fX5ZdIo&p!<[]~ink5f7Hp]sM~Ai:V0T_0Xro*O3Y&1M),c>63[mpiD$FvK%HXl|e
(^%P1S&/o>2%/N(xW<.yr:ev69k;FER,x6KnI~7Ca8TtDw~9[ayZ?FRvw/AHM:R_^pZ845;RH6*)LJq4ID&<qOB.M.g%G2!NqYK
%h*7H4Y+qEoTA2LePSp!lK7H|?mDIP8c%|z~+hj/:wcvp5jF9xK9>,KA8dE2(4YeRzW<Tm!,qZ(jxE]=Jg?QeWyjE7%[4XbS!a]
Hga[I7yEue76hsBISV;)%XGXDvV^68h)g*[O,Teiuf8;M0F4H%(D~a;1CK^aEkxai(MifZ]2do<bETtgC[Lnn7HAqY?poiyKwHW
_21gdSOKhmvT=qDJO8Y)hiS8dYUxT_S9>gU/W+tgFKLSs]FnWCo..REV/epZ!J1EtDmYVC|&hcX:/uXMp~fO;qY/FXn$+M>3j8Y
K.S?Li9%g3!uqK~0zWxCZG^^xDklo+jC/2<Kk^&zPmkM,U?.yzrdwnsiCz+<sL*i$D,hhRcAArA(QPlVDwc>B[M(7G+(6dKZ70j
s*Ik~G.Ia]jO*iwo:*OshqC(10$A^Pr<+nOw/j9i>[Pwb0?:j]D>cGpb+.9/igbX.+pxUbvCNz!Ua,Z;[RKHZj.0R55$P.O?JI*
ep4+z4$gVeOjS5KLt5Ek4K%A]^t+7.(THmVhS&rUVSiI=w0:Bzoa9aS156FyIP<MZVE&gK]bfo=7F*a(S4])5xsVD5*XjsPOH_3
=huoxWYk2jfUWFVF]:82Oq9U;plSfYwY7WA^Oyog2J|y?)9AB4ShvlWFmwruVeU?*g/f+EZqZRNl(:_I/(yOrI+[i1Flj^|&8t?
m[bA&YWS$q3sKaidG(?$+Z=^<i>9Gp3n=XgKY[7K=T0orSYgh4gsb2h_Je](YBmlK9sA~RrSDvx.P5buenVlB19?OXfve4LE/cB
*ZEVJ?<Mq3^5!IRlfAn<9k7XQUx7mTYW$Gk7>zH_sJwyJcNwo.I**dX(E+.?xp_;Q.azhMAb;v7Gy:t6go4R_Bv<>wrzsFq~:;g
35ElGIzQ85>1+XaHUW+O,s)DVUB<Lnj0Zcz8P/9Fvsvd8>c,9Y[4/UrRU05*BkI+[O_bYL[R1io1?p<nfYT4vsPHH^fNd&+6KV4
gg?21FU2q!YIsX?*ZFJCugZcj^B=sa|]C&c>i)6h)<37%u+oMY0Wk.3cj92($hK,%u4<N%q0HvV90_8h>6f9H8m~%Tnd/H/twOm
Fe]=[f>M30UUuX1BZiOYU:ZPJI3_1hM(MG7IH/fw%6GlWO7k.[Gzw*+7&<Z?%Iq[1eGXDQG6VlQ>:_B:6RR=:B[cYpM,mTI0!AS
pmCulB?WevjDpEq=wU8>QmK=u)?DA2uj>k3HZPU5mOdirc]D8N_1n]DO]=vLbSN0TnG=>(bYRELtGQFC7Ya=rhjt3j*bt*GUsw$
E]H60KI?Ajss36P,YVtv[To,9ir<Pb^3lH*U&72u&6>Mu;on_]Mp<:=s|0^/t%CM|QP|&OEt+VlM~,>$~=3[(?0q,Rj.9:/n!^V
LGM5b2tP_BAUfRJMV8A&O0ARDxTFTD5y4Ly4q2,c*wJWadaK*B2!g=0:NfDA,Z_LWcPx:Mt=TfV%VvsXfq08ItFIMy4qd7dT/p!
jOd.EY9>2uKAqMlnfyYz6Mu88wRq6f.q4s%(<gT.=h]hZDA]NO&p!I:UbJ.En3aN5]H/hw?=xK)O(jhV+2u&KJ[fVCzEhZW%(.f
An1y86+:s_wG9Y.9^GwCrDi%Vg2,2|bei/QL],x;YIh^XNH~[Zd]%gcbt_C[P3=i%2OEgg>&e%K6RSfm~q0bXeQPux2q56ILL39
qPF^Y_1$?yFI[3.s<:am8o~Kx8m^)uM|h6z&3.NkGA<J*4XiBTr)V(t0M2KY(d%u[]O6!0s&?JjmxM7l9HT.Cgp+?mrqF*xhUdX
i|g;%<YptkEh,!yX)~?u1F9),?%9.s9.hv_K6MrtRGMG8?A&<FAtZ_ic~R6:Ye?6t&5WHGY5dWmTB/%EBAh$J%hVu$;1,l7|9<(
Ec,Vxar2:K=[e,$~9$x54mSkeP5DTNyewyXJCSM95jkXuS(]iB6_xF]YjNQnp^rjw=rvjf3ndbJ!1zl!aoMN=/reQ2hQQp>pt$6
^B1kX4Musg>>s*^AKS7$ef$K8:W.D79p|>lsifGCHJ0]F0347?Dqb3z3KwFYiNJCj9_8<d|9Z=?RI^OvFnfh.J<8%?k~!Z)yu;[
xeDgiu$FMb.Z!WnYs15+j8wyD10IEzz!geMmc,P8mKAI%Cy1rkq(a/6dw~Hpp!zBDDfB&OQ;7a^bV7%jsVJl^HXz;TVICn!~0(!
)nYZig|jlNMEbvXrx.E^lULvH$<E9,stJaSF:_Wl[ay020i>V)5Exg]*O$w^.yVE|JkG,zB2lfg5Nuhry;%cDWMZ/[JjLmy4P=,
lTj~)3i~8f]Hi:5AkJ)S.&v!En<zN52N^nC$06c^u52_Sk*z3[.554P>VFc^+IC(&)UrB)gNfmZ0d]HfE]RF!!>Feq&d!9]w>0|
6D(wZRphcV4H0LRdF1x6G/vy$anR^F^h&6WsIeb61|~42RSy7wgEr^(y.8kkEAuTXG0v~rc5I~Qtg<[dM|avg~7SWrLq?iJeW^P
.V>lG:iE3&uchxHuo%|y:VXy,SUIZ)bRyS3^EfE$y<<J?h^Oa&sE7uac6Ev5<jN|i*KQ|p7YvF<SePO%uHsur=3*tllrrV,:lW1
6XuCV9Db=N75]U6C:)^bf;hJR.dNsULst0J>oiU(xR^1Y|ZP5sF>4GZWMKKBwbPXUnO~^0,+T5u6$|TuM%lKZ,tR)A>Qw~5;jxm
SLVrMu0j>$;F9;WZeW&TRGvt;x5h(]t40*&lbP]p!ujXg3qY!(5FgKl=flXo4J!$2(Rpp!.zKY:ET[~KfzBGxo_l|HKhH*%sVq=
<~h~~yNQO,6ym$[$^JN[g$eSkVY&H[>WqYA]SCaa~L_z;jmwtY!MG!283b5kN7KC7<u^:jRN^L$FvvVZO$&e5xvQ7j=[<OJQy$/
GK>$S+R7BFwhrX^ma<<,o!])?d?ma:(rndxo=d)]^PW7,yl_AVbJRs,rsVXLwVXx5zQ%^cXn,nbi9jsz9=?7(k?;wU^7/3/8~?:
U8zp|i|f2S2.ne0[E2(1iQm,qr3sn;VzqA11w~ju8I2LQyi~F3OJ1mrw:V6E,?.XJ&!lBaTD64u,jQrnCp)ePX$Aug+yQ.aTWD[
x]Q)g&?qIFtsxlWp5x1EY*6jMA_.1I~M$<hM/6W^P9Y=0mdZ[|6|7IX/,=8U+YPH=yMy4*/CR|3~CwJ07Yv$XJLT6V$u[>_O095
,r0_.LfUT2]V6/0Y5dGZdw+I_CRryp7i0Ogth~RxUnNJZ:bfzyJ+tRupluOokB&&*;836](9,Z6gNGOQt208zATCSUeIHk3>Ng<
%otH&ex>TbtAX.)>2W;cQkpk^[n6gUI~xOxY,^1/[*J</Oi$X!(xHmh3M;qCu7j/k8[;|Jy=QYyfNgbUsJ>t3q,V%u/0~U7fU>_
X~)[oGdw)7*IJYb_bS~5x7TVf3E;^/MlRS5gp/avi=lfc/pEU?Hb6Llgepa&*~:g(2N:TavirWI6~[0eQn=wM3*uJ]5&O]g%Ott
C21ZueH1X>HcGDl:%5Evam**ZNdB$MX)Q1iSHD:gJw_RpJieS14hD=[Nqc*M9w20hVL~eBa/vAtf7iq)f,FG;]Fh?Q1fB&3~^.J
r17pq;&r//5MI&[ee4O0XXZi%kQzpV_)9eef?XXX0WhZufO*Q6leiPo:>)m?4ZKIMU:$QsNe*dzVQ^Q*7$2UsUf)CHTKO>l7&/^
QuAw6R?823/346vgJ<Qsrf,qS/h6Lowkwv1SO<<6CDrSEO%5j4*)D,:!%O44n[8k~YD$3JsS,|TDhjxe3c*sle5H5j)w~35pxZp
[C3;p8Cs.hGlZ2Y1*itIl;QlH=)CY/P]*cZ,!Ukz_lqvu.+Mv1xWmGoeT/(2?,3&UTmw&N0U:/Ops7GB8so15.LIg7aB6U_crey
C,>X2>!p9>hi|G<,Ol=Z(x;:5K4!mC/J_5U^aBi2IkC2YH|E_:1RQi$pmd(w68epiP9U,/=+98yqeU3%KU?4v<xKm*mlC3Kdu[c
(,=ElN8WmDz(R%41v|;9&1AoZ~jJJp44AiBS8gy82vt:)%DyT8^WE:hzypm+;0*gQ3!5X[v$c]yeE??x;;FsKc/i<DXGFu|sf)h
sFsEWi7SG)SZa7I;PIwg49ZjN,BZH?vsU=m$r+f0^WO5Y<$wpqr:.UvJie.SFvlufe,99c50qc%<o~AoM0bNqaj*1(Y$K&I%O$q
Roi&u+Y=^4JW(oCwFfq/6m)vFRee[6JHMVg85lP,qQ_<ih5!g7>Z,H,Lr&gGP*q;J;FTLp!>YB>c:_+mK~al?z?>u||HAp5OXs:
tgU[xqG;ZS3>Nz8vE/PRyH&8^:rqF8*<8Iiosr!f^(Sdfe_m=6k..:0HdnUahKR]]%.SdTYD?[0j4jS+hx5*(]zTW0a>&>FTel]
S2IH+4yKdWWA=xW.O$(DtdA.W,2c_6dW>h%%ro%>^p?Q5~LW$LC^Vs<,q/ncpq%zB_!gD9zQC[Z7hR:s|gjc(9[Y^tt4i&;7/WC
C&>SjZJic06euRow4,<X&vxlYk,iMU]uvWp<^3qC5pG>7>y1C_TpgYhQYk)|F:3g4S)^nJ26Iue!N)vO:R7FK4Z,&0m8PR_MB]C
84euQyVyow%R6)UrK~x?UYE3fa1EV<OM6vRF0AYOg_RS8O3q.v$ykCLZP|~Cy+s:,Q:R3v/6<CGlQ*[r[v&<jPuRTt>dg:I7GDy
v=r%c*U4EFsYk9%hP8OqhD!yss(nz=tEU0hoiH>O/K?S8<Q?^Z:e2ZyqNQ$0/kg;=,*i!yALP&wR3IW65CTA9P)b?*3[Xx6h:2J
/qnN<1cAg9Va4XQ,60ujvh/A=,P7XG^y9Kc+_7GaX93TiY7nSrn5Y[/8|D=e$C,3_9G:XX[4ama]kNMm+iis%D93H:ARt9S=%oy
33Tn&%~uu=iuluZ,yS[sWNNaSOH]Y$4JPwX&g76!]^0]4%FH(Q5D+NH3&dm|enmf8j.Jwu7Kcn=PvP|PBJ/5IM,EWLm!z~)f:?[
[mlQDW>h:4e?*FEIff^SV0WtO[UO?HEsYUFKgdT.:fJLOWb[y!JGCeQCn%3L]4T^5N%DWPVTe3kUZ_$+m_]I3Y<ynQ8:ZJ,|JT$
6MzvTK|DDHC*G?oj)[pt^o(pAvPe<N_1Khdfc*F2b[zgNUx7/x>DY9(?h?mqyGIbuj_J<)$BjUvnoRXH/F:I6*CW?~3dG^/H;u(
o0Z729J[0o_jcgUlzJ?h:FyXRwvuw2FJgK&;,$R6r=7Wm4S![=w[Yj3s!npB27h8Jy[w$z:<GL_/b4>ZVh_$GJ=Rbe?hM^29SW&
E3G|XSRep!td3|YNQu+!bwLgr9(swDH?uu382DOu.~sbd=%(~xlA9CGFg</9~O%3a2nk<RXXj<G8~Lkv5S=g_ujs2IN+jX%a,$f
_dy5AKl%$dJ+<%f]p0X0_^Z<rNoecq6L=/lPC&2HBUNIMMf2%2UY<MKEepd!lEb]Yes%]QfQi0Ot9]<U.Ps/L./m.cFZS,MqZ/)
TFEjUT2.,TK;s[:NgqKFn0kCCi*nW.^oMiGsa7)0:.+^RBQXtzn1v(/0Q/owVMV=HG:(1O5FC)pxIR$=D77%YTMh8^yi=WqIpCV
3$_p!!r:R2Y~;~z&uq)^A*udCyjry9AF$>ih$TQ|JrYU[,x)Gs8IrO!IiNKh;XHFS7;C9x>>&$U=yFHTr7t3Mrx~NM9~3$knj*a
g0NAXdFP]LSw;c<TK2Yjm;J~J44C|if?vWJ<ot+aN)?r+SH1A6KyXyuOr7FVqg*HCsA6<G4Df5bsO4z<LNG)>,ofq5%gu?/~pwI
=/tXoEp/mUF(~v![1;0~<=UR(:^c(j;9zpg[[(VMRno/!(oBX2)Hz!Z(y62a~bhR)gW?fb&>$5Zhkqmn0SI8Br1gi(M5SZ:tshq
~jJT_6JV0JRoqnxIiX(M:g%lT7[s*^v|5zwMAVd.48S<+*465X&>89qGq=m_6A5L6x8x=oiOt*E:,a|jgudQA<9Lg(%.ydk[eWf
^]yw|ISerBke=ThK=dCJpweFN+,9solwJx]dyz>%x=/4hMA4<4J^4R*ASJ4q2Hb2m)B3g4~Qjg)xlG]))Mjx)9]Zn&W;Dl+F&K9
YtU0|x%CGilej1LS5aS)yN_~3ceSbg)sYa7clCp7LQaT)u4i;54:D<A|C33G,eL;*T*lT>OI:=HyI(l|T9<PCpMO32N%M^YfEMw
+2SQG|Oy!p:LP!QM$9Zegv+8=JT,BeH$cd!3(56zgRK[LtlNgDEHxFG4?/zPYBs)c+Ibo1UuWtHKtn_]HTjN|9aO1n)!Rw_HQfP
Uo5[+~0kmKDSzuX:S6(8^k,>g!|+v$e*%+B]~Q]Lg3C2_>2mAP]C,w6p3q_+|r,zgK<.VQZtS,^j!y!tw_0_m./abM(&IA8Tw!A
*6_]?9J.fv+q?,F!ox+Hk1;uhoz=]mNY6Y5wTlR?5wrI<(/vRlU_pPgEaBH7pC?6JpeUulmSCPkF(7Z%lA40buJ~1/6E>e==7Ig
w.xMr1wr_?=qVdsp9e?X_t$Tg_OBY>0.UZpL!1sKtQ7)UwAu[beg$AzGfn=r&^35rUBLTLwAkB(Ct7KuE3S2g+,&r%*OXxf*:A?
B9tL1E,6Yb=_gH^lLpt,/03zMtCY77Hh(;f50i0tz&:,1rY24mlX7o7xYWd^F/dx?/f+B8Aw;GyPa(B4e>hMkcmN^0[f8XY.O5T
OJsi$WNXyu9)bbvzuEkRw(MP3VriA1p|TRK6DV6u*Z!A~MZ9VLP1ceK/b*81/I2:8W$8qI[c[V>o,Tdd>RsS>;=NifQC~:NVj_2
Mk:l^~s56,E>O1cdt&%B^P?xFCSFpf(c$T<?un_sU8kVm9B3zc&YRI4<dO<wqm2/L|DOpo5tC]L2gE=T*F=K_L.LTOj*y[*vJa/
P5FOPv?B0I4JACZ(N,&Y?/*]W%5d3^4r>HAh2;lrLL~~9b2~V~2peqHMZQod*+f6H5.?:vQLeV/OG,%9T(Y$U17;_tFP79gvt[X
C+a/bF~D2W<o]V[a:;quYV~s4W4by~4X%jjBwU(58cOBtnGW..d/[6DGS=t&*$;d^;f;fBhtnabob)7IbZHaQfnp7_Ho.(S2JQD
2R0LKI!AwUi;aYTj=0~Fn]eS[j1L%%[4;joLB;893Fr$7OZ+0vjFvHd1B&QG>G4[CS1jMIBuTe4pDc/[4VDx?oe.I(*.!/WLfN[
_,8xPEFkI>AP]E&=h$(?:qUGYnGUYr$/e|?.URpLCRWXDVWCA&6e()9<Bhvw/Ol.~jPYNc2,x)38mbys0mzO|g:oQNUAJoRtDej
FbRiJc[DjvHMvn1?$5d0X(9m!pXNgY4rcH]/JI;mUPoPo_8j;S&%S+c>EuS,.7ck38u/7iGXDU$:w$DSQWN|lq.r6X|J1~t~H[u
GQ1fj.6Ayg2;RKTzU(aZC(;*qkBIy&Epc5z%Qw)|<jvgl/4g!86,cL;)CF!8*zIaa)]*IQ=AJ8j8<(%Y.gW$L[FzE<:1?/c[!&;
*l%.aCA;$1oqzAuJEQL^r5!t,0&94QYPf=,xw+hMr/zG;QMgOYzfFz&GB.A*%R9hkH]r5ZuUQw9[^.e6pdW/ljais0&D8$E.c)4
U$.X;=RlB~upG(.]pv2Ti/5^OtWC.oARn*%ASSut$^zUiK0;u~lIOSv+LU.IcDjt23qvzGHGY%qHbpTF_zWx>p~~xOd[|yjJ:JG
W;d99gjvSTdOa.Mf)X<x(COiLipp|SUrwJO_[20%DZ1_2h+3~/fYCz0gUdnb3B>1V)D~5OhnCB|iecrK%MrOt_swVod(97W|n.8
v%!/5bzX>:D85UYJ(<1sBnY!&AJL>$WAQ:)|~tiSW8;ahkSt%+$n3qh<i2AfSiVmwWIyHdC9WWCCeHkhpapNMZm1Cd2KuAUYj3I
<O17C:5R?k|HU92Bwe]q[9)c~<dlWWIl%PQUMX2LX3U>$KNCS5gub=FvTugeG?ax8Ic*em?;r^CtZgZ=af3B|s7?F!Q6C6jJPse
^h$+F%&aJ<M7OG2izIBb(TV*&D[)f/+j635in1!Hjn3gXq;OS$*e<5FDs&zRp!hC%f6(P]>Bxm~VB.Q8eRSRqk6U!$gkgwVbvpE
<6~VlZ4N$/.veO%NZjAx*]3<cYyUlTD^61B1HJd$]!BdP8T5^,75(=9a,>%smxOk]]hi%,)<R?[ooi6HR3Y4VM1Vp^*riKZg0j8
e!Edat&Zbt3O4O&OGot+hpM8s]6o3<Um0bf1CoZ[bNx9^g+0?:P76]/)Iu&!TD1G5kmZN:]5QzV&$&C^;s/g+OqB$EP[/[8psU=
p*!+$NaYQaOCPZ9&mz(u[wkgrpF8u2c1aHwBwirvz/Yw?kwUkY1P&>u*^??;E1cjNad177.G)Jy][Dm6cO4>0FM.,DA<J*b%Knd
F|FXtdns*h!z+JFb_Gf,xij$ye8|SJ^_6XK=%5FUk^6F>].DzyZtB&2]ACnklsc,:JK/0jluAwZDapkZI<W%m~zYw<|3C*eq;xF
5Z!~1o=sZ^o(Ljl,UsZc|0g?fTl7gypm*.MRbb1g2!=I:(O6>5H?xr3P.2HKOrx)%$;qnSrulD^H(yBf&$mHPHx/f,rtMv+w.Z|
T.dNTe*bH&3:xnz0mF]zKn4Wwh~/_ffAGUg(Bsta%2|F.EIwA%w?r[q__A_y>wd0>D!my!1!vkw(],/,NNvBhWBr.xb5PTw1_;%
F|LNMo_k8Dww?=/]%NX~46wy&I$TpH4Xbl[v5GJ(X8b/bwHmUf)N5I0b:x8Bbs7KxP9RkgY~s,gj6s1CLIvk+qlM+PWc;3o4Qj!
6F<6wB;dn2AW23;Me3JD.kJo,WWF=Q]X=GSTJ<4gtZCko9Mrzd<211F.,p~L|U3(jix>G^P0n9yW6_>%2^6=c_R$Mr6:Zj1HO3U
tR9[=b~ogbehwp0;D~:;or4O%$C!<<0Z>HHzJq_8)apJ0_im~+n187_h(.dIuU|K+,n8r.,X~Di23xrqC4I!o(>wcH(o4q+M,CQ
;8<Q8IaJ/b<Q=$y1%Ze)YH8^Bl7nc)5yK5=7k~ig>Yph3Vt^NQ[UV)5qZ?qrPLTD^||j!_s14?r33MEfo~!IRq?^i_DmrWXup9&
ac>v(~h;K1oXm~vE?63k8P96IxnLG0;:Sl%k=I[nRyp*b95^u[*H:rfSEh|p.KrdHJQbZ+as^y6x8o/Za6NHXd!RL(u+?Vj;XUO
B*BO4!Dm/J7ogajR6vwOwFZuE119jhn_(bN:?U|U3f;Qy?<ohmB6i4,2vZhv3%ZN2VwyF*r8g4iP~/[&bm![maAL]OLjRPCJE+s
3yk3ffMlVFkCX&?xP3FqFUoI;B4G1~B!*aNa6$J2zK9*.&9jY)KtyP5[n_Z(j,h|yL**owHVv;dZHzGUxH<j(Txr_H6%t2T$tE[
+$bf&FL5Vssqrvc*8kY]$e17rqD[]cUn4+CRi~K%*G.Xiby0*e~7I(<Tl8_Ar[<?E%Cxo!Z+j?yP<q/p(;C?cyMAha^]1m*Y:6V
MZYmBh~4jhPa[Exlwc>lQZ5W|fy>LT!p7TVYCXk!QXW|F+!lbcF7CP:9W(.cw.U1h/N[5$&qEEG$EVQy+Dr90iv/REd)ldw%URE
/Qp/_Y?Ab7ai[eqOus*Od4Ig>NImYiO;!fcG)5YSLO?wb/7nVeuqi~A+vi%sxP**$TjO!d]ff=]65%S!EQ+FF2?C;laJJCjlcnz
*uR81I~=;soo!=x?h|2(dZbKuVG;?le>rTl|UMd*[dG<b/zt7g*pT5$*X%:7L7kBkwMKKBy_|DLRh*(TuSu^VFhr6O^j6Pp,L*K
D5I3wkNDY$!L*~s%&iJ6,_QN(u1zyFnm&3f|:[kk_4;gx4:mp5s:3.2>C),;xK>QBGC[+o29._<qF&m~>S&yUbU6C3=gE|AZI8W
/$hs~=Sm_r$ny;ek]mu9W($x2)beQvOxm$H<Pc8Z?V]5]3ZaY>zY;B4vG_RvWRBU~cI~dwK].sZ:0&HXuYXP::6Sh+bIMJ0owo<
;C9*.n?(mW1J$i6PF)xS=F(ar=uT%BcU>O4WoU*;sII3PaKa7l9A=!%.|3|aKzJVee<v(SEBTj=h7.a<S)OLtrmlbmvS;6/a8jn
=NW~uMaVo;pBzA4LKU%R+<Ob,eeX^3PfS.U;e;_RBGX.%Jx$9dEIFe(?%__JPXG[3)*nPL^(dY4U/A?^&.ffs(.EF~W<%SWJiBU
W0n=*|.JqTcW?rt4K<fV:kJ*?t?ja+YjdfRR7H7EQ[PcOM.Q5Ydkm_o7wPY|9u9ZfSc>_^:Tm%%eY+qKou^Ha)]?jr?P.xo2Buy
?TR=]2CJRZg%d1Cn,8l%6ija]ErtvoueloltZq+Fc.v^&Qm,XXgDmTtua[L.=.&xHI$Yra]+.4=6k~|N9WEiv?D!13S],!AIdkt
4MCNMY($*^8cm7=&lA6=E)^X7dGL8)/_BWA>sNeMBy%[s]|~Swx^cDu4H=E;5h/Is%$HNrg6=FVzL7Fo%_2zAyXHxj13v6:SOUM
)]K0Uu7[0kQc3Mg/lR8d=*PMIZpk3]tth5m*;caLy7O)sF4$0gPF+*4t!Qjw^y/J+rmTOH=XP3Z^8R/SF<tl>$$7E[OUIc!.X;M
0V=Ud[dUv~eY8TSL;681I[Z~v5/Z]]Qk~Zk14gY[Z/+K=*(GU^TebTEV:V2aMIp&8pWh]8EswmddV!7hFB(?VY<.%bdF7^M(23k
F^njY4Kr2JVotXm()VP7YYEwaD_>g4Fd3F)sM:3]RFoF%3g8nSnmpXeWCgEi$4,Zu08a)B7~_x^L3(2/Biw!IGQC<r7=>jKT>&.
!gR358Vn<w,k~T~5$Gxp$;H;bS,dGbsK6|kiySlrGN~~=C;o46eL79]/&qo5U7ediyDfr9G~hLUCU9Rg[tS]5UmKzHD+1bV*QSl
&7^7uIx(z*7kAI$pFd6^+$YKSN2&Wj_s*?60GICVnKYzSX$xO/HI^(Hhvka<~s;oOn<&+yqw]9y$faw6/zBk0zuy/c<<HjM]3rp
u~Ug|!4[K9nSUK0v%eH4MU9qGW?;2tu(IZGUEZK<dBZf]R%Q]so+pI?OvNN;Tf^)?y>$X2;Ze8pBDn:fN7MK:RADU*Xy0v.sRp<
&o=/,oov9h]/K;^rD^<7ETm?+!1aO^RAYJ(n%E7SxP&e5An/0jg!uku8IbCtu,2aJ^,<uE)<d&($BmCO?+&;W~nQe$V~PqZhO4J
]RmuzUp9k|D?)~/Z&Nnmg_rzM_8sJ;4RV<|F$dFN?nqarTvjQFw3(e|!8y=2>B1FO,V62stg9j6E^:s)q&)h1x7~n]*1!zbLQ:A
l>4cwiK<Wqb(W8Mc]wUH)+)vmeGHykcK7tXXGtdM[;pOuTtfmMDzC.]]OtTqGKUa8F:QDD,RW3J9J>$:RSD/8|o.g4fw)hxVXx*
vT1;z3&=_T8&4;Lk_)!%[x9~/J*R)9_s~TC:%~19(/Mx^Hsu2ax_[xgO0|<JX+0+J|botB1j0b/r14N+FnD$Ob+X2,bFYC[gOp^
c>QtjK4+gSHflQ&nC7.1*U&3pU:10imd~zKApn6:!/_*)og51TmEpOm%%uN3$?G&W:<qj,^ms~NY1xnE1[QewvxVowvnMbPunJt
8Hut=i2uEmJ[d7bhc7vru!2;c.Z(G]hrOM9rX5x=7Wefg+Dn4wWmKDA.BTLRzZ%5aC!b2cimA,fDq9Tb22+%C>/%EboY(dav*v0
K:|i<V(|Q_t,H+t_]xe2uJ<1A:i1|m0lun)b,Wy.FPTf%sf~ASmqESwtH5_t1D|bi6.!29?R7t2kY/8?8e_qFrayIvKZinCAr&j
cz1.B580Z6yW9_jj:eGMLm)$oIf0KLvhl=K!F(WaRdHOqw:8]<8RlI/sr)H+1$qe?cZvXdUm[GZ4C81=Kz7JVvjw1/vPNl;PKEa
|]gql+oZK~^|8dwj3(9jcq/Znm56_[fm$*D&uWF$F?q2d3MI&2s=vU>A,3$]W4V:%jK^EiyzVw])j+&ITgKzV)C^x~6GHA<UcJh
+r39k|a88(orZOfKg5HLDX!m+MVQOJw1DiqTbl)G/X*P12]GyAJ6Ud!yQNl$FS82jXJvmmN|MWAFzM7t(dz?.Ej2IJ=XF9%CU:Q
!o|ys6dyuqS6V&4,8l*4QEeosE9fGGZ+Omjh,?_wN7HxkWto+G5a_h+L.lp[f&EfClwRR_uwlL)R_2tuk_DE<.;l;sNpJE15Y><
GV[B]$"

end CodeAtlas.Text.CharacterName
